import GherkinView.File.Tree

namespace GherkinView.File

-- A set of characters as ranges, or what is outside of it.
structure CharSet where
  negated : Bool
  ranges : List (Char × Char)
  deriving DecidableEq

def CharSet.has (s : CharSet) (c : Char) : Bool :=
  s.negated != s.ranges.any fun r => r.1 ≤ c && c ≤ r.2

inductive Glyph
  | star
  | one
  | literal (c : Char)
  | set (s : CharSet)
  deriving DecidableEq

namespace Glyph

-- A hyphen between two characters makes a range of them; elsewhere it stands for itself.
def items : Text → List (Char × Option Char)
  | a :: '-' :: b :: r => (a, some b) :: items r
  | c :: r => (c, none) :: items r
  | [] => []

def isForward : Char × Option Char → Bool
  | (a, b?) => b?.all (a ≤ ·)

def range : Char × Option Char → Char × Char
  | (a, b?) => (a, b?.getD a)

-- Brackets that hold `body`. Ranges that run backwards are left out first. What then begins with an
-- exclamation mark is the negation of the rest; if a range began with it, its hyphen and its end stay.
def ofBrackets (body : Text) : Glyph :=
  let forwards := fun t => (items t).filter isForward
  match body with
  | '!' :: r => .set ⟨true, (forwards r).map range⟩
  | _ =>
    match forwards body with
    | ('!', none) :: is => .set ⟨true, is.map range⟩
    | ('!', some b) :: is => .set ⟨true, ('-', '-') :: (b, b) :: is.map range⟩
    | is => .set ⟨false, is.map range⟩

-- The body of brackets and what follows them; a bracket that closes at once stands for itself.
def closeBrackets? : Text → Option (Text × Text)
  | '!' :: ']' :: r => (split? r).map fun (b, r) => ('!' :: ']' :: b, r)
  | ']' :: r => (split? r).map fun (b, r) => (']' :: b, r)
  | r => split? r
where
  split? : Text → Option (Text × Text)
    | [] => none
    | ']' :: r => some ([], r)
    | c :: r => (split? r).map fun (b, r) => (c :: b, r)

-- `read` characters at the start belong to brackets that have been read.
def parseFrom : Nat → Text → List Glyph
  | _, [] => []
  | read + 1, _ :: r => parseFrom read r
  | 0, '*' :: r => .star :: parseFrom 0 r
  | 0, '?' :: r => .one :: parseFrom 0 r
  | 0, '[' :: r =>
    match closeBrackets? r with
    | some (body, rest) => ofBrackets body :: parseFrom (r.length - rest.length) r
    | none => .literal '[' :: parseFrom 0 r
  | 0, c :: r => .literal c :: parseFrom 0 r

def parse (t : Text) : List Glyph :=
  parseFrom 0 t

def fits : Glyph → Char → Bool
  | star, _ => false
  | one, _ => true
  | literal d, c => d == c
  | set s, c => s.has c

end Glyph

def anyTail (p : Text → Bool) : Text → Bool
  | [] => p []
  | c :: r => p (c :: r) || anyTail p r

-- Whether the whole name is of the form that `glyphs` describe.
def matchName : List Glyph → Text → Bool
  | [], t => t.isEmpty
  | .star :: gs, t => anyTail (matchName gs) t
  | g :: gs, c :: r => g.fits c && matchName gs r
  | _ :: _, [] => false

inductive Segment
  | name (n : Text)
  | wild (glyphs : List Glyph)
  | anyDepth
  -- Behind a closing slash: the directory itself.
  | here
  deriving DecidableEq

namespace Segment

def isWild (t : Text) : Bool :=
  t.any fun c => c == '*' || c == '?' || c == '['

def ofPart (t : Text) : Except PatternFault Segment :=
  if t = ['*', '*'] then .ok .anyDepth
  else if Text.contains ['*', '*'] t then .error .deepInName
  else if isWild t then .ok (.wild (Glyph.parse t))
  else .ok (.name t)

end Segment

-- Never empty.
def parsePattern (t : Text) : Except PatternFault (List Segment) := do
  if t.isEmpty then throw (.nothing (Text.display t))
  let p := Path.ofText t
  if p.isAbsolute then throw .absolute
  let segments ← p.parts.mapM Segment.ofPart
  let closed := t.getLast? == some '/'
  if segments.isEmpty then throw (if closed then .onlySlash else .onlyDots)
  return if closed then segments ++ [.here] else segments

namespace Tree

def childrenAt (t : Tree) (p : Path) : List (Text × Entry) :=
  match t.locate p with
  | .ok l => t.children l
  | .error _ => []

-- `p` and the directories below it, which the tree has at any depth.
def directoriesFrom (t : Tree) (p : Path) : List Path :=
  p :: match t.locate p with
  | .ok l => (t.directoriesBelow l).map fun below => { p with parts := p.parts ++ below }
  | .error _ => []

-- The paths that `segments` lead to from the directory `p`. What more segments follow must be a
-- directory.
def glob (t : Tree) (p : Path) : List Segment → List Path
  | [] => [p]
  | .here :: _ => [p]
  | .name n :: rest =>
    let q := p.child n
    if if rest.isEmpty then t.exists? q else t.isDirectory q then t.glob q rest else []
  | .wild glyphs :: rest =>
    let fitting := (t.childrenAt p).filter fun (name, e) =>
      matchName glyphs name && (rest.isEmpty || e matches .directory _)
    fitting.flatMap fun (name, _) => t.glob (p.child name) rest
  | .anyDepth :: rest => (t.directoriesFrom p).flatMap fun q => t.glob q rest

end Tree
end GherkinView.File
