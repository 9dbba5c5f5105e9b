import GherkinView.Settings.Variables

-- Files of statements that set variables. A statement is `name`, which sets nothing, or `name=value`; `export`
-- may stand before it and a comment behind it. Values may refer to variables.

namespace GherkinView.Settings

-- References

-- The name and the default of a reference that takes up all of `t` but for its closing brace.
def reference? (t : Text) : Option (Text × Text) :=
  match t with
  | '$' :: '{' :: r =>
    let name := r.takeWhile (· != ':')
    match r.dropWhile (· != ':') with
    | [] => some (name, [])
    | ':' :: '-' :: fallback => some (name, fallback)
    | _ => none
  | _ => none

-- A text that a closing brace follows, with the first reference that the brace closes replaced.
def expandClosed? (value : (name fallback : Text) → Text) : Text → Option Text
  | [] => none
  | c :: r =>
    match reference? (c :: r) with
    | some (name, fallback) => some (value name fallback)
    | none => (expandClosed? value r).map (c :: ·)

def expand (value : (name fallback : Text) → Text) (t : Text) : Text :=
  let pieces := t.splitOn '}'
  let closed := pieces.dropLast.flatMap fun p => (expandClosed? value p).getD (p ++ ['}'])
  closed ++ pieces.getLast?.getD []

-- Statements. One that breaks off leaves what stands there as an error.

structure Statement where
  name : Text
  value : Option Text

def isInlineBlank (c : Char) : Bool :=
  Text.isBlank c && c != '\n'

def skipInlineBlanks (t : Text) : Text :=
  t.dropWhile isInlineBlank

def skipExport (t : Text) : Text :=
  match Text.after? "export".toList t with
  | some (c :: r) => if isInlineBlank c then skipInlineBlanks r else t
  | _ => t

def isNameChar (c : Char) : Bool :=
  !(c == '=' || c == '#' || Text.isBlank c)

-- There is no name in a line that is just a comment.
def readName (t : Text) : Except Text (Option Text × Text) :=
  match t with
  | '#' :: _ => .ok (none, t)
  | '\x27' :: r =>
    match r.takeWhile (· != '\x27'), r.dropWhile (· != '\x27') with
    | c :: name, _ :: r => .ok (some (c :: name), r)
    | _, _ => .error t
  | t =>
    match t.takeWhile isNameChar with
    | [] => .error t
    | name => .ok (some name, t.dropWhile isNameChar)

-- What precedes the closing quote, and what follows it. That is the first quote without a backslash
-- before it, or the last one, `other`. `done` is what has been read, last character first.
def cutQuoted? (quote : Char) (other : Option (Text × Text)) (done : Text) : Text → Option (Text × Text)
  | [] => other
  | '\\' :: c :: r =>
    if c == quote then cutQuoted? quote (some (('\\' :: done).reverse, r)) (c :: '\\' :: done) r
    else cutQuoted? quote other ('\\' :: done) (c :: r)
  | c :: r => if c == quote then some (done.reverse, r) else cutQuoted? quote other (c :: done) r

def unescape (meaning : Char → Option Char) : Text → Text
  | '\\' :: c :: r =>
    match meaning c with
    | some x => x :: unescape meaning r
    | none => '\\' :: unescape meaning (c :: r)
  | c :: r => c :: unescape meaning r
  | [] => []

def singleMeaning (c : Char) : Option Char :=
  if c == '\\' || c == '\x27' then some c else none

def doubleMeaning (c : Char) : Option Char :=
  match c with
  | '\\' | '\x27' | '\x22' => some c
  | 'a' => some '\x07'
  | 'b' => some '\x08'
  | 'f' => some '\x0c'
  | 'n' => some '\n'
  | 'r' => some '\r'
  | 't' => some '\t'
  | 'v' => some '\x0b'
  | _ => none

-- Without quotes, a comment needs a blank before it.
def withoutComment : Text → Text
  | [] => []
  | c :: r =>
    if Text.isBlank c && (r.dropWhile Text.isBlank).head? == some '#' then [] else c :: withoutComment r

def readQuoted (quote : Char) (meaning : Char → Option Char) (t r : Text) : Except Text (Text × Text) :=
  match cutQuoted? quote none [] r with
  | some (inner, r) => .ok (unescape meaning inner, r)
  | none => .error t

def readValue (t : Text) : Except Text (Text × Text) :=
  match t with
  | '\x27' :: r => readQuoted '\x27' singleMeaning t r
  | '\x22' :: r => readQuoted '\x22' doubleMeaning t r
  | t =>
    .ok (Text.trimEnd (withoutComment (t.takeWhile (· != '\n'))), t.dropWhile (· != '\n'))

def skipComment (t : Text) : Text :=
  match skipInlineBlanks t with
  | '#' :: r => r.dropWhile (· != '\n')
  | _ => t

-- A statement at its first character, and what follows its line.
def readStatement (t : Text) : Except Text (Option Statement × Text) := do
  let (name?, r) ← readName (skipExport t)
  let r := skipInlineBlanks r
  let (value, r) ← match r with
    | '=' :: r => do
      let (v, r) ← readValue (skipInlineBlanks r)
      pure (some v, r)
    | r => pure (none, r)
  let r := skipComment r
  match skipInlineBlanks r with
  | [] => return (name?.map (⟨·, value⟩), [])
  | '\n' :: r => return (name?.map (⟨·, value⟩), r)
  | _ => throw r

structure VariableFile where
  statements : List Statement := []
  -- The lines behind which statements stand that cannot be read.
  unread : List Nat := []

-- How many lines end in `t` before `r`, with which it ends.
def linesBetween (t r : Text) : Nat :=
  (t.take (t.length - r.length)).count '\n'

def readStatements : Nat → (line : Nat) → Text → VariableFile
  | 0, _, _ => {}
  | n + 1, line, t =>
    match Text.trimStart t with
    | [] => {}
    | s =>
      match readStatement s with
      | .ok (statement?, r) =>
        let file := readStatements n (line + linesBetween t r) r
        { file with statements := statement?.toList ++ file.statements }
      | .error r =>
        let r := (r.dropWhile (· != '\n')).drop 1
        let file := readStatements n (line + linesBetween t r) r
        { file with unread := line :: file.unread }

namespace VariableFile

-- Every statement takes a character at least.
def ofText (t : Text) : VariableFile :=
  readStatements t.length 1 t

-- A variable that is set already counts before what the file says of it so far.
def valueIn (vs : Variables) (above : List Statement) (name fallback : Text) : Text :=
  match vs.get? name, above.find? (·.name == name) with
  | some v, _ => v
  | none, some s => s.value.getD []
  | none, none => fallback

-- The statements with their references replaced, last first.
def expanded (vs : Variables) (file : VariableFile) : List Statement :=
  file.statements.foldl (fun above s =>
    { s with value := s.value.map (expand (valueIn vs above)) } :: above) []

end VariableFile

-- The last statement on a name counts.
def Variables.load (vs : Variables) (file : VariableFile) : Variables :=
  let statements := file.expanded vs
  statements.reverse.foldl (fun new s =>
    if vs.isSet s.name then new
    else match (statements.find? (·.name == s.name)).bind (·.value) with
      | some v => new.set s.name v
      | none => new) vs

end GherkinView.Settings
