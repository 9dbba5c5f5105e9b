import GherkinView.Yaml.Flow

namespace GherkinView.Yaml

open Settings

def atDash (p : Cursor) : Bool := p.atIndicator '-'

-- Whether a key that starts at `start` ends at `p`.
def isBlockKeyEnd (start p : Cursor) : Bool :=
  p.atIndicator ':' && p.line == start.line

-- Whether `q` is on the same line as `p`, or nothing follows.
def isBeside (p q : Cursor) : Bool :=
  !q.isDone && q.line == p.line

-- Whether a name is given at `p` to what stands on the lines below, or to nothing.
def givesNameBelow (p : Cursor) : Bool :=
  closes '&' p && !isBeside p (p.skip (1 + ((p.rest.drop 1).takeWhile isNameChar).length)).skipFiller

-- Blocks are sequences and mappings by indentation.
mutual

-- A node at its first character. It belongs to a block at column `parent`, or to none, and may be a
-- block itself if it is `free` to start one: at the start of a line, or behind a dash.
def readNode (free : Bool) (parent : Option Nat) : Nat → Cursor → Reading (Value × Cursor)
  | 0, _ => .malformed
  | n + 1, p =>
    if atDash p then
      if free then do
        let (vs, q) ← readEntries n p.column false p
        return (.list vs, q)
      else .malformed
    else if givesNameBelow p then do
      let (anchor, q) ← readName p
      let next := q.skipFiller
      .name anchor p.rest.length <|
        if next.isDone || parent.any (next.column ≤ ·) then pure (.null, q) else readNode true parent n next
    else do
      let seen ← get
      let (v, q) ← readAtom parent n p
      if isBlockKeyEnd p q.skipFiller then
        if free then do
          set seen
          let (es, q) ← readPairs n p
          return (.mapping (Entries.ofList es), q)
        else .malformed
      else return (v, q)

def readAtom (parent : Option Nat) : Nat → Cursor → Reading (Value × Cursor)
  | 0, _ => .malformed
  | n + 1, p =>
    if closes '[' p || closes '{' p then readFlow n p
    else if closes '*' p then do
      let (anchor, q) ← readName p
      return (← .lookUp anchor, q)
    else if closes '&' p then do
      let (anchor, q) ← readName p
      let next := q.skipFiller
      if atSign next then .malformed
      else .name anchor p.rest.length (if isBeside q next then readAtom parent n next else pure (.null, q))
    else readScalar false (parent.elim 0 (· + 1)) p

-- Pairs of a mapping; `p` stands at a key, in whose column the others start.
def readPairs : Nat → Cursor → Reading (List (Scalar × Value) × Cursor)
  | 0, _ => .malformed
  | n + 1, p => do
    let (v, q) ← readAtom (some p.column) n p
    let k ← .wellFormed (scalar? v)
    let colon := q.skipFiller
    if !isBlockKeyEnd p colon then .malformed
    else
      let (w, q) ← readMember n p.column (colon.skip 1)
      let next := q.skipFiller
      if next.isDone || next.column < p.column then return ([(k, w)], q)
      else if p.column < next.column || next.line == q.line || atDash next then .malformed
      else
        let (es, q) ← readPairs n next
        return ((k, w) :: es, q)

-- The value behind the colon of a key in `column`. A sequence may start in the column of its key.
def readMember : Nat → (column : Nat) → Cursor → Reading (Value × Cursor)
  | 0, _, _ => .malformed
  | n + 1, column, p =>
    let q := p.skipFiller
    if q.isDone then return (.null, q)
    else if q.line == p.line then
      if givesNameBelow q then do
        let (anchor, r) ← readName q
        .name anchor q.rest.length (readMember n column r)
      else readNode false (some column) n q
    else if column < q.column then readNode true (some column) n q
    else if column == q.column && atDash q then do
      let (vs, q) ← readEntries n column true q
      return (.list vs, q)
    else return (.null, p)

-- Entries of a sequence; `p` stands at a dash, in whose column the others start. Where the sequence
-- stands in the column of its key, the next key ends it.
def readEntries : Nat → (column : Nat) → (underKey : Bool) → Cursor → Reading (List Value × Cursor)
  | 0, _, _, _ => .malformed
  | n + 1, column, underKey, p => do
    let q := (p.skip 1).skipFiller
    let (v, q) ← if q.isDone then pure (.null, q)
      else if q.line == p.line || column < q.column then readNode true (some column) n q
      else pure (.null, p.skip 1)
    let next := q.skipFiller
    if next.isDone || next.column < column then return ([v], q)
    else if column < next.column then .malformed
    else if atDash next then
      let (vs, q) ← readEntries n column underKey next
      return (v :: vs, q)
    else if underKey then return ([v], q)
    else .malformed

end

-- Behind the end of a document there may only be more marks of it.
def endsAt : Nat → Cursor → Bool
  | 0, p => p.atEnd
  | n + 1, p =>
    let p := p.skipFiller
    p.atEnd || (p.atEndMarker && endsAt n (p.skip 3))

-- The value of the one document in a text.
def readDocument (t : Text) : Reading Value :=
  -- Every call moves on or goes one level down.
  let fuel := 4 * t.length + 8
  let p : Cursor := Cursor.skipFiller ⟨t, 0, 0⟩
  let q := if p.atStartMarker then (p.skip 3).skipFiller else p
  let free := !p.atStartMarker || q.line != p.line
  if p.atEnd then return .null
  else if p.atStartMarker && (q.atEnd || q.atEndMarker) then
    if endsAt fuel q then return .null else .malformed
  else if q.atMarker then .malformed
  else do
    let (v, q) ← readNode free none fuel q
    if endsAt fuel q then return v else .malformed

-- The value that has been read, unless something is wrong with it.
def Seen.check (seen : Seen) (v : Value) : Except Unread Value :=
  match seen.fault with
  | some message => .error (.invalid message)
  | none => if seen.endless then .error .endless else .ok v

def readText (t : Text) : Except Unread Value := do
  if !t.all isAllowed then throw .malformed
  let (v, seen) ← (readDocument (if t.head? == some '\ufeff' then t.drop 1 else t)).run {}
  seen.check v

-- A file is read piece by piece, so what breaks off at its end has no place but the end.
def read (bytes : List UInt8) : Except Unread Value :=
  match File.Utf8.decode bytes with
  | .error f => .error (.undecodable (if f.fault = .unexpectedEnd then { f with start := 0 } else f))
  | .ok t => readText (File.normalizeNewlines t)

end GherkinView.Yaml
