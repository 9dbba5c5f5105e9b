import GherkinView.Text.Basic

namespace GherkinView.Yaml

-- A place in a YAML text: what is left of it, and the line and the column where that starts.
structure Cursor where
  rest : Text
  line : Nat := 0
  column : Nat := 0

def isBreak (c : Char) : Bool :=
  c == '\n' || c == '\u0085' || c == '\u2028' || c == '\u2029'

-- What may stand behind an indicator.
def isGap (c : Char) : Bool :=
  c == ' ' || c == '\t' || isBreak c

-- The characters a text may consist of.
def isAllowed (c : Char) : Bool :=
  let n := c.toNat
  n == 0x09 || n == 0x0A || n == 0x0D || (0x20 ≤ n && n ≤ 0x7E) || n == 0x85 ||
    (0xA0 ≤ n && n ≤ 0xFFFD) || 0x10000 ≤ n

-- Line ends are written as line feeds, but for the separators of Unicode.
def breakText (c : Char) : Char :=
  if c == '\u0085' then '\n' else c

def gapNext (t : Text) : Bool :=
  t.head?.all isGap

namespace Cursor

def step (p : Cursor) : Cursor :=
  match p.rest with
  | [] => p
  | c :: r => if isBreak c then ⟨r, p.line + 1, 0⟩ else ⟨r, p.line, p.column + 1⟩

-- Moves over characters of one line.
def skip (p : Cursor) (n : Nat) : Cursor :=
  ⟨p.rest.drop n, p.line, p.column + n⟩

def atEnd (p : Cursor) : Bool :=
  p.rest.isEmpty

-- Three characters that start or end a document, at the start of a line.
def isMarker (p : Cursor) (marker : Text) : Bool :=
  p.column == 0 && marker.isPrefixOf p.rest && gapNext (p.rest.drop 3)

def atStartMarker (p : Cursor) : Bool := p.isMarker ['-', '-', '-']

def atEndMarker (p : Cursor) : Bool := p.isMarker ['.', '.', '.']

def atMarker (p : Cursor) : Bool := p.atStartMarker || p.atEndMarker

-- Whether the content is over.
def isDone (p : Cursor) : Bool := p.atEnd || p.atMarker

def atIndicator (p : Cursor) (c : Char) : Bool :=
  match p.rest with
  | d :: r => d == c && gapNext r
  | [] => false

def skipFiller.go (line column : Nat) (inComment : Bool) : Text → Cursor
  | [] => ⟨[], line, column⟩
  | c :: r =>
    if isBreak c then go (line + 1) 0 false r
    else if inComment || c == ' ' then go line (column + 1) inComment r
    else if c == '#' then go line (column + 1) true r
    else ⟨c :: r, line, column⟩

-- Moves over spaces, line ends and comments.
def skipFiller (p : Cursor) : Cursor :=
  skipFiller.go p.line p.column false p.rest

end Cursor
end GherkinView.Yaml
