import GherkinView.Error

namespace GherkinView.File

abbrev Location := List Text

inductive Stamp
  | fresh (count : Nat)
  | time (seconds : Int)
  deriving DecidableEq

inductive Entry
  | directory (stamp : Stamp)
  | file (bytes : List UInt8) (stamp : Stamp)
  deriving DecidableEq

def Entry.stamp : Entry → Stamp
  | directory s => s
  | file _ s => s

-- Entries stand under their full location, which has neither single nor double dots. Every change takes
-- the next stamp, unless a time is given for it.
structure Tree where
  -- The working directory, from which relative paths lead.
  home : Location := []
  entries : List (Location × Entry) := []
  -- Where links stand, and where each leads in the end. There are no entries in their places.
  links : List (Location × Location) := []
  changes : Nat := 0
  deriving DecidableEq

namespace Tree

def entry? (t : Tree) (l : Location) : Option Entry :=
  if l = [] then some (.directory (.fresh 0)) else t.entries.lookup l

-- One step along a path: double dots lead back up.
def advance (l : Location) (part : Text) : Location :=
  if part = ['.', '.'] then l.dropLast else l ++ [part]

-- What stands at `l` stands here.
def destination (t : Tree) (l : Location) : Location :=
  (t.links.lookup l).getD l

def step (t : Tree) (l : Location) (part : Text) : Location :=
  t.destination (advance l part)

-- Where `parts` lead from `l`; all but the last must be directories.
def follow (t : Tree) (l : Location) : List Text → Except Cause Location
  | [] => .ok l
  | part :: parts =>
    match t.entry? l with
    | none => .error .missing
    | some (.file _ _) => .error .notDirectory
    | some (.directory _) => t.follow (t.step l part) parts

def locate (t : Tree) (p : Path) : Except Cause Location :=
  t.follow (if p.isAbsolute then [] else t.home) p.parts

def find (t : Tree) (p : Path) : Except Cause (Location × Entry) := do
  let l ← t.locate p
  match t.entry? l with
  | some e => .ok (l, e)
  | none => .error .missing

def exists? (t : Tree) (p : Path) : Bool :=
  (t.find p).toOption.isSome

def isFile (t : Tree) (p : Path) : Bool :=
  match t.find p with
  | .ok (_, .file _ _) => true
  | _ => false

def isDirectory (t : Tree) (p : Path) : Bool :=
  match t.find p with
  | .ok (_, .directory _) => true
  | _ => false

-- The entry that a name as it is written leads to. Nothing has the empty name, and only a directory
-- one that ends in a slash or a single dot.
def named? (t : Tree) (name : Text) : Option Entry := do
  let (_, e) ← (t.find (.ofText name)).toOption
  let wantsDirectory := name.getLast? == some '/' || List.isSuffixOf ['/', '.'] name
  if name.isEmpty || (wantsDirectory && e matches .file _ _) then none else some e

def isFileNamed (t : Tree) (name : Text) : Bool :=
  (t.named? name) matches some (.file _ _)

def stamp? (t : Tree) (p : Path) : Option Stamp :=
  (t.find p).toOption.map (·.2.stamp)

def put (t : Tree) (l : Location) (e : Entry) : Tree :=
  if (t.entries.lookup l).isSome then
    { t with entries := t.entries.map fun (k, old) => (k, if k = l then e else old) }
  else { t with entries := t.entries ++ [(l, e)] }

-- Adding or removing an entry changes the directory that holds it.
def touchHolder (t : Tree) (l : Location) (s : Stamp) : Tree :=
  match t.entries.lookup l.dropLast with
  | some (.directory _) => t.put l.dropLast (.directory s)
  | _ => t

def add (t : Tree) (l : Location) (e : Entry) : Tree :=
  if (t.entry? l).isSome then t.put l e else (t.put l e).touchHolder l (.fresh t.changes)

def failAt (p : Path) : Except Cause α → Except Error α
  | .ok a => .ok a
  | .error c => .error (.file c p)

def readBytes (t : Tree) (p : Path) : Except Error (List UInt8) := do
  match ← failAt p (t.find p) with
  | (_, .file bytes _) => .ok bytes
  | (_, .directory _) => .error (.file .isDirectory p)

def decodeText (bytes : List UInt8) : Except Error Text :=
  match Utf8.decode bytes with
  | .ok text => .ok (normalizeNewlines text)
  | .error f => .error (.undecodable f)

def readText (t : Tree) (p : Path) : Except Error Text := do
  decodeText (← t.readBytes p)

-- Where a file or a directory can be made. No name has a NUL character.
def site (t : Tree) (p : Path) : Except Cause Location :=
  if p.hasNull then .error .nullCharacter else t.locate p

-- The location a file may be written to: its directory exists, and it is no directory itself.
def writable (t : Tree) (p : Path) : Except Error Location := do
  let l ← failAt p (t.site p)
  match t.entry? l, t.entry? l.dropLast with
  | some (.directory _), _ => .error (.file .isDirectory p)
  | some (.file _ _), _ => .ok l
  | none, some (.directory _) => .ok l
  | none, some (.file _ _) => .error (.file .notDirectory p)
  | none, none => .error (.file .missing p)

def writeBytes (t : Tree) (p : Path) (bytes : List UInt8) : Except Error Tree := do
  let l ← t.writable p
  .ok { t.add l (.file bytes (.fresh t.changes)) with changes := t.changes + 1 }

def writeText (t : Tree) (p : Path) (text : Text) : Except Error Tree :=
  t.writeBytes p (Utf8.encode text)

-- Opens a file to append to, which makes it if it is missing.
def openLog (t : Tree) (p : Path) : Except Error (Tree × Location) := do
  let l ← t.writable p
  match t.entry? l with
  | some _ => .ok (t, l)
  | none => .ok ({ t.add l (.file [] (.fresh t.changes)) with changes := t.changes + 1 }, l)

-- Nothing is written to a file that is gone.
def append (t : Tree) (l : Location) (text : Text) : Tree :=
  match t.entry? l with
  | some (.file bytes _) =>
    { t.put l (.file (bytes ++ Utf8.encode text) (.fresh t.changes)) with changes := t.changes + 1 }
  | _ => t

def makeDirectory (t : Tree) (p : Path) : Except Cause Tree := do
  let l ← t.site p
  match t.entry? l, t.entry? l.dropLast with
  | some _, _ => .error .exists
  | none, some (.directory _) =>
    .ok { t.add l (.directory (.fresh t.changes)) with changes := t.changes + 1 }
  | none, some (.file _ _) => .error .notDirectory
  | none, none => .error .missing

-- A directory that is already there is as good as a new one.
def ensureDirectory (t : Tree) (p : Path) : Except Cause Tree :=
  match t.makeDirectory p with
  | .error .missing => .error .missing
  | .error c => if t.isDirectory p then .ok t else .error c
  | .ok t => .ok t

-- `parts` are those of the path, last first; the directories above are made as far as they are
-- missing.
def makeDirectories.go (root : Text) (t : Tree) : List Text → Except Error Tree
  | [] => failAt ⟨root, []⟩ (t.ensureDirectory ⟨root, []⟩)
  | part :: above =>
    let p : Path := ⟨root, (part :: above).reverse⟩
    match t.ensureDirectory p with
    | .error .missing => do
      let t ← go root t above
      failAt p (t.ensureDirectory p)
    | r => failAt p r

def makeDirectories (t : Tree) (p : Path) : Except Error Tree :=
  makeDirectories.go p.root t p.parts.reverse

def nameIn? (l k : Location) : Option Text :=
  if k.dropLast = l then k.getLast? else none

-- The names in a directory, those of links with what they lead to.
def children (t : Tree) (l : Location) : List (Text × Entry) :=
  (t.entries.filterMap fun (k, e) => (nameIn? l k).map (·, e)) ++
    t.links.filterMap fun (k, k') => (nameIn? l k).bind fun name => (t.entry? k').map (name, ·)

-- The directories below `l` at any depth, as seen from `l`, but for those that links lead to.
def directoriesBelow (t : Tree) (l : Location) : List (List Text) :=
  t.entries.filterMap fun (k, e) =>
    match e, l.isPrefixOf? k with
    | .directory _, some (c :: r) => some (c :: r)
    | _, _ => none

end Tree
end GherkinView.File
