import GherkinView.File.Tree

namespace GherkinView.File

inductive Edit
  -- Nothing as content stands for a directory.
  | write (path : Path) (content : Option (List UInt8)) (time : Option Int)
  | touch (path : Path) (time : Int)
  | remove (path : Path)

namespace Tree

def stampFor (t : Tree) (time : Option Int) : Stamp :=
  time.elim (.fresh t.changes) .time

-- The directories above come along. Where a file stands as a directory, or the other way round,
-- nothing is changed.
def write (t : Tree) (p : Path) (content : Option (List UInt8)) (time : Option Int) : Except Error Tree := do
  let t ← t.makeDirectories p.parent
  let t ← match content with
    | some bytes => t.writeBytes p bytes
    | none => t.makeDirectories p
  let l ← failAt p (t.locate p)
  return match content with
    | some bytes => t.put l (.file bytes (t.stampFor time))
    | none => t.put l (.directory (t.stampFor time))

def touch (t : Tree) (p : Path) (time : Int) : Except Error Tree := do
  match ← failAt p (t.find p) with
  | (l, .file bytes _) => return t.put l (.file bytes (.time time))
  | (l, .directory _) => return t.put l (.directory (.time time))

def remove (t : Tree) (p : Path) : Except Error Tree := do
  let (l, _) ← failAt p (t.find p)
  let t := { t with
    entries := t.entries.filter fun (k, _) => !l.isPrefixOf k
    changes := t.changes + 1 }
  return t.touchHolder l (.fresh t.changes)

def edit (t : Tree) (e : Edit) : Tree :=
  let edited := match e with
    | .write p content time => t.write p content time
    | .touch p time => t.touch p time
    | .remove p => t.remove p
  edited.toOption.getD t

-- The files below the working directory, with what they hold.
def files (t : Tree) : List (List Text × List UInt8) :=
  t.entries.filterMap fun (k, e) =>
    match e, t.home.isPrefixOf? k with
    | .file bytes _, some parts => some (parts, bytes)
    | _, _ => none

-- The files that are new since `before`, or hold something else.
def filesSince (t before : Tree) : List (List Text × List UInt8) :=
  t.files.filter fun (parts, bytes) => before.files.lookup parts != some bytes

end Tree
end GherkinView.File
