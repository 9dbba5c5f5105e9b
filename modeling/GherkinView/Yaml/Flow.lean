import GherkinView.Libraries
import GherkinView.Yaml.Scalar

namespace GherkinView.Yaml

open Number Settings

-- What is kept while a text is read: the values that have a name, the names of what is still being read, and what
-- is wrong with values that have the right form only.
structure Seen where
  named : List (Text × Value) := []
  opened : List Text := []
  fault : Option Text := none
  endless : Bool := false

abbrev Reading := StateT Seen (Except Unread)

namespace Reading

def malformed {α : Type} : Reading α :=
  throw .malformed

def wellFormed {α : Type} : Option α → Reading α
  | some a => pure a
  | none => malformed

-- Mappings with a name are one wherever they stand, and are told apart by the place where they get it.
def name {α : Type} (anchor : Text) (place : Nat) (read : Reading (Value × α)) : Reading (Value × α) := do
  let seen ← get
  set { seen with opened := anchor :: seen.opened }
  let (v, q) ← read
  let seen ← get
  if seen.named.any (·.1 == anchor) then malformed
  else
    let v := match v with
      | .mapping es _ => .mapping es (some place)
      | v => v
    set { seen with named := (anchor, v) :: seen.named, opened := seen.opened.tail }
    return (v, q)

def lookUp (anchor : Text) : Reading Value := do
  let seen ← get
  match seen.named.lookup anchor with
  | some v => return v
  | none =>
    if seen.opened.contains anchor then
      set { seen with endless := true }
      return .list []
    else malformed

-- A fault is told of only if the whole text is well formed.
def value : Except Text Scalar → Reading Value
  | .ok s => pure (.scalar s)
  | .error message => do
    modify fun seen => { seen with fault := seen.fault.or (some message) }
    return .null

end Reading

-- The texts of line ends that follow each other, with the spaces of the lines between them.
-- A marker of documents is not passed.
def lineEnds (also : Char → Bool) : Nat → Cursor → Text × Cursor
  | 0, p => ([], p)
  | n + 1, p =>
    if p.atMarker then ([], p)
    else match p.rest with
      | c :: _ =>
        if isBreak c then
          let (ends, q) := lineEnds also n p.step
          (breakText c :: ends, q)
        else if also c then lineEnds also n p.step
        else ([], p)
      | [] => ([], p)

-- A single line end folds to a space; of more, the first is dropped.
def fold (first : Char) (more : Text) : Text :=
  if breakText first != '\n' then breakText first :: more
  else if more.isEmpty then [' '] else more

-- Plain scalars

-- Characters that mean something else at the start of a node.
def isReserved (c : Char) : Bool :=
  "-?:,[]#&*!|>%@\x27\x22\x60\x7b\x7d".toList.contains c

def isPlainStart (flow : Bool) (t : Text) : Bool :=
  match t with
  | [] => false
  | c :: r =>
    !(isGap c || isReserved c) || (!gapNext r && (c == '-' || (!flow && (c == '?' || c == ':'))))

-- How far a plain scalar goes on its line.
def plainRun (flow : Bool) : Text → Text
  | [] => []
  | c :: r =>
    let closesKey := c == ':' && (gapNext r || (flow && r.head?.any isFlowMark))
    if isGap c || closesKey || (flow && (isFlowMark c || c == '?')) then [] else c :: plainRun flow r
where
  isFlowMark (c : Char) : Bool := c == ',' || c == '[' || c == ']' || c == '{' || c == '}'

-- The lines after the first must start at `least` or behind it, unless in brackets. `done` is what
-- has been read, and `joint` what stands between it and the next run.
def plainRest (flow : Bool) (least : Nat) : Nat → (done joint : Text) → Cursor → Text × Cursor
  | 0, done, _, p => (done, p)
  | n + 1, done, joint, p =>
    let run := plainRun flow p.rest
    if run.isEmpty then (done, p)
    else
      let done := done ++ joint ++ run
      let p := p.skip run.length
      let spaces := p.rest.takeWhile (· == ' ')
      let q := p.skip spaces.length
      match q.rest with
      | [] => (done, p)
      | c :: _ =>
        let (joint, q) := if isBreak c then
            let (ends, q') := lineEnds (· == ' ') q.rest.length q.step
            (if q'.atMarker then [] else fold c ends, q')
          else (spaces, q)
        if joint.isEmpty || q.rest.head? == some '#' || (!flow && q.column < least) then (done, p)
        else plainRest flow least n done joint q

def readPlainAt (flow : Bool) (least : Nat) (p : Cursor) : Option (Text × Cursor) :=
  if isPlainStart flow p.rest then some (plainRest flow least p.rest.length [] [] p) else none

-- Quoted scalars

def escaped? (c : Char) : Option Char :=
  match c with
  | '0' => some '\x00'
  | 'a' => some '\x07'
  | 'b' => some '\x08'
  | 't' | '\t' => some '\t'
  | 'n' => some '\n'
  | 'v' => some '\x0b'
  | 'f' => some '\x0c'
  | 'r' => some '\r'
  | 'e' => some '\x1b'
  | ' ' | '\x22' | '\\' | '/' => some c
  | 'N' => some '\u0085'
  | '_' => some '\u00a0'
  | 'L' => some '\u2028'
  | 'P' => some '\u2029'
  | _ => none

def codeLength (c : Char) : Nat :=
  if c == 'x' then 2 else if c == 'u' then 4 else if c == 'U' then 8 else 0

-- The spaces and line ends that `p` stands at, as they count inside of quotes. A line end does not
-- count if it is escaped.
def quotedGap (n : Nat) (isEscaped : Bool) (p : Cursor) : Option (Text × Cursor) :=
  let spaces := p.rest.takeWhile fun c => c == ' ' || c == '\t'
  let q := p.skip spaces.length
  match q.rest with
  | [] => none
  | c :: _ =>
    if isBreak c then
      let (ends, r) := lineEnds (fun c => c == ' ' || c == '\t') n q.step
      if r.atMarker then none else some (if isEscaped then ends else fold c ends, r)
    else some (spaces, q)

-- What stands between quotes, up to the closing one; `done` is what has been read, last character
-- first. A code that no character has is not a fault of the form.
def quotedRest (double : Bool) : Nat → (done : Text) → Cursor → Except Unread (Text × Cursor)
  | 0, _, _ => throw .malformed
  | n + 1, done, p =>
    match p.rest with
    | [] => throw .malformed
    | c :: r =>
      if isGap c then
        match quotedGap n false p with
        | some (gap, q) => quotedRest double n (gap.reverse ++ done) q
        | none => throw .malformed
      else if double then
        if c == '\x22' then return (done.reverse, p.step)
        else if c == '\\' then
          match r with
          | [] => throw .malformed
          | e :: codes =>
            if isBreak e then
              match quotedGap n true p.step with
              | some (gap, q) => quotedRest double n (gap.reverse ++ done) q
              | none => throw .malformed
            else if codeLength e != 0 then
              let digits := codes.take (codeLength e)
              if digits.length != codeLength e || !digits.all isHexDigit then throw .malformed
              else if 0x110000 ≤ inBase 16 digits then
                throw (.invalid "chr() arg not in range(0x110000)".toList)
              else quotedRest double n (Char.ofNat (inBase 16 digits) :: done) (p.skip (2 + codeLength e))
            else match escaped? e with
              | some x => quotedRest double n (x :: done) (p.skip 2)
              | none => throw .malformed
        else quotedRest double n (c :: done) p.step
      else if c == '\x27' then
        if r.head? == some '\x27' then quotedRest double n (c :: done) (p.skip 2)
        else return (done.reverse, p.step)
      else quotedRest double n (c :: done) p.step

-- A scalar of any style, at its first character.
def readScalar (flow : Bool) (least : Nat) (p : Cursor) : Reading (Value × Cursor) := do
  match p.rest with
  | '\x22' :: _ => let (t, q) ← quotedRest true p.rest.length [] p.step; return (.text t, q)
  | '\x27' :: _ => let (t, q) ← quotedRest false p.rest.length [] p.step; return (.text t, q)
  | _ =>
    let (t, q) ← .wellFormed (readPlainAt flow least p)
    return (← .value (← .wellFormed (readPlain? t)), q)

-- Names

def isNameChar (c : Char) : Bool :=
  isDigit c || ('a' ≤ c && c ≤ 'z') || ('A' ≤ c && c ≤ 'Z') || c == '-' || c == '_'

-- What may stand behind a name, but for the end of the text.
def closesName (c : Char) : Bool :=
  isGap c || "?:,]\x7d%@\x60".toList.contains c

-- The name behind a sign.
def readName (p : Cursor) : Reading (Text × Cursor) :=
  let t := (p.rest.drop 1).takeWhile isNameChar
  let q := p.skip (1 + t.length)
  if t.isEmpty || !q.rest.head?.all closesName then .malformed else return (t, q)

-- Brackets

def scalar? : Value → Option Scalar
  | .scalar s => some s
  | _ => none

def closes (c : Char) (p : Cursor) : Bool :=
  p.rest.head? == some c

-- A key and its colon are on one line.
def isKeyEnd (start p : Cursor) : Bool :=
  p.rest.head? == some ':' && p.line == start.line

-- Signs that stand in front of names, one to give them and one to use them.
def atSign (p : Cursor) : Bool :=
  closes '&' p || closes '*' p

mutual

def readFlow : Nat → Cursor → Reading (Value × Cursor)
  | 0, _ => .malformed
  | n + 1, p =>
    if p.atMarker then .malformed
    else match p.rest with
      | '[' :: _ => do
        let (items, q) ← readItems n (p.skip 1).skipFiller
        return (.list items, q)
      | '{' :: _ => do
        let (es, q) ← readMembers n (p.skip 1).skipFiller
        return (.mapping (Entries.ofList es), q)
      | '*' :: _ => do
        let (anchor, q) ← readName p
        return (← .lookUp anchor, q)
      | '&' :: _ => do
        let (anchor, q) ← readName p
        let q := q.skipFiller
        if atSign q then .malformed
        else .name anchor p.rest.length (readFlowValue n q)
      | _ => readScalar true 0 p

-- What follows a colon in brackets; nothing may.
def readFlowValue : Nat → Cursor → Reading (Value × Cursor)
  | 0, _ => .malformed
  | n + 1, p =>
    if closes ',' p || closes '}' p || closes ']' p then return (.null, p) else readFlow n p

def readItems : Nat → Cursor → Reading (List Value × Cursor)
  | 0, _ => .malformed
  | n + 1, p =>
    if closes ']' p then return ([], p.skip 1)
    else do
      let (v, q) ← readFlow n p
      let q := q.skipFiller
      let (v, q) ← if isKeyEnd p q then do
          let k ← .wellFormed (scalar? v)
          let (w, q) ← readFlowValue n (q.skip 1).skipFiller
          pure (.mapping [(k, w)], q.skipFiller)
        else pure (v, q)
      if closes ',' q then
        let (vs, q) ← readItems n (q.skip 1).skipFiller
        return (v :: vs, q)
      else if closes ']' q then return ([v], q.skip 1)
      else .malformed

def readMembers : Nat → Cursor → Reading (List (Scalar × Value) × Cursor)
  | 0, _ => .malformed
  | n + 1, p =>
    if closes '}' p then return ([], p.skip 1)
    else do
      let (v, q) ← readFlow n p
      let k ← .wellFormed (scalar? v)
      let q := q.skipFiller
      let (w, q) ← if isKeyEnd p q then do
          let (w, q) ← readFlowValue n (q.skip 1).skipFiller
          pure (w, q.skipFiller)
        else pure (.null, q)
      if closes ',' q then
        let (es, q) ← readMembers n (q.skip 1).skipFiller
        return ((k, w) :: es, q)
      else if closes '}' q then return ([(k, w)], q.skip 1)
      else .malformed

end

end GherkinView.Yaml
