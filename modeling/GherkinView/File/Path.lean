import GherkinView.Text.Basic

namespace GherkinView.File

-- Empty components and single dots do not count, double dots stay. Two leading slashes are a root of their own, any
-- other number of them is one.
structure Path where
  root : Text := []
  parts : List Text := []
  deriving DecidableEq

namespace Path

def rootOf (t : Text) : Text :=
  match (t.takeWhile (· == '/')).length with
  | 0 => []
  | 2 => ['/', '/']
  | _ => ['/']

def ofText (t : Text) : Path :=
  ⟨rootOf t, (t.splitOn '/').filter fun c => c != [] && c != ['.']⟩

def toText (p : Path) : Text :=
  if p.root = [] ∧ p.parts = [] then ['.'] else p.root ++ List.intercalate ['/'] p.parts

def isAbsolute (p : Path) : Bool :=
  p.root != []

def name (p : Path) : Text :=
  p.parts.getLast?.getD []

def hasNull (p : Path) : Bool :=
  p.parts.any (List.elem '\x00')

def parent (p : Path) : Path :=
  { p with parts := p.parts.dropLast }

def child (p : Path) (name : Text) : Path :=
  { p with parts := p.parts ++ [name] }

-- `q` as seen from `p`.
def join (p q : Path) : Path :=
  if q.isAbsolute then q else { p with parts := p.parts ++ q.parts }

-- A name with a dot inside, at neither end, has a suffix that starts at the last one.
def splitName (name : Text) : Text × Text :=
  match Text.cutLast? '.' name with
  | some (before, rest) => if before.isEmpty || rest.isEmpty then (name, []) else (before, '.' :: rest)
  | none => (name, [])

def stem (p : Path) : Text :=
  (splitName p.name).1

def suffix (p : Path) : Text :=
  (splitName p.name).2

-- What is left of `p` below `base`.
def below? (p base : Path) : Option Path :=
  if p.root = base.root then (base.parts.isPrefixOf? p.parts).map fun rest => ⟨[], rest⟩ else none

def sortKey (p : Path) : List Text :=
  if p.isAbsolute then p.root :: p.parts else p.parts

-- Paths are ordered by their components, these by code points.
def precedes (p q : Path) : Bool :=
  List.lex p.sortKey q.sortKey fun s t => List.lex s t fun c d => decide (c < d)

end Path
end GherkinView.File
