import GherkinView.CommandLine.Run
import GherkinView.Standard

namespace GherkinView.CommandLine

open File Journal Number Settings Standard

-- What another place of the same file system is read through.
def placeAt (l : Location) : IO.FS.DirEntry :=
  ⟨"/", String.ofList (List.intercalate ['/'] l)⟩

-- Only files that a command may look into are read.
def mayBeRead (args : List Text) (name : Text) : Bool :=
  let suffix := Text.lower (Path.suffix ⟨[], [name]⟩)
  scriptSuffixes.contains suffix || suffix == ".yaml".toList || name == implicitVariableFile ||
    args.any (List.isSuffixOf name)

def stampOf (m : IO.FS.Metadata) : Stamp :=
  .time (m.modified.sec * 1000000000 + m.modified.nsec.toNat)

def remember (t : Tree) (l : Location) (e : Entry) : Tree :=
  let above := (List.range l.length).map fun n => l.take n
  (above.foldl (fun t l => if (t.entry? l).isNone then t.put l (.directory (.fresh 0)) else t) t).put l e

-- Takes a place and everything below it into the tree, and what links lead to; what cannot be read is left out.
partial def take (args : List Text) (t : Tree) (l : Location) : IO Tree := do
  let place := placeAt l
  try
    if (← place.path.symlinkMetadata).type matches .symlink then
      let target := (Path.ofText (← IO.FS.realPath place.path).toString.toList).parts
      let t := { t with links := (l, target) :: t.links }
      if (t.entry? target).isSome then return t else return ← take args t target
    let data ← place.path.metadata
    match data.type with
    | .dir =>
      let t := remember t l (.directory (stampOf data))
      (← place.path.readDir).foldlM (fun t e => take args t (l ++ [e.fileName.toList])) t
    | _ =>
      let bytes ← if mayBeRead args (l.getLast?.getD []) then IO.FS.readBinFile place.path else pure .empty
      return remember t l (.file bytes.toList (stampOf data))
  catch _ => return t

-- Places outside of the working directory that the command line may lead to.
def placesOutside (home : Location) (args : List Text) : List Location :=
  let names := args ++ args.map fun a => (a.dropWhile (· != '=')).drop 1
  let named := (names.map Path.ofText).filter fun p => p.isAbsolute || p.parts.head? == some ['.', '.']
  let found := named.map fun p => plainLocation (if p.isAbsolute then [] else home) p.parts
  let beside := found.map fun l => l.dropLast ++ ["environments".toList]
  let above := (List.range home.length).map fun n => home.take n ++ [implicitVariableFile]
  (found ++ beside ++ above).filter fun l => !home.isPrefixOf l && l != []

def snapshot (args : List Text) : IO Tree := do
  let home := (Path.ofText (← IO.currentDir).toString.toList).parts
  let t ← take args { home } home
  (placesOutside home args).foldlM (take args) t

def environmentVariables : IO Variables := do
  try
    let bytes ← IO.FS.readBinFile "/proc/self/environ"
    let texts := ((Utf8.decode bytes.toList).toOption.getD []).splitOn '\x00'
    return texts.map fun t => (t.takeWhile (· != '='), (t.dropWhile (· != '=')).drop 1)
  catch _ => return []

-- The records of a log file are put behind what it holds; other files are written as a whole.
def writeChanges (s : Session) (before : Tree) : IO Unit := do
  let logs := (s.desk.channels.get Channel.program).handlers
  for (l, e) in s.tree.entries do
    match e, before.entry? l with
    | .directory _, none => IO.FS.createDirAll (placeAt l).path
    | .directory _, _ => pure ()
    | .file bytes _, old =>
      let oldBytes := match old with
        | some (.file bytes _) => bytes
        | _ => []
      if old.isNone || bytes != oldBytes then
        if logs.contains (.file l) then
          let handle ← IO.FS.Handle.mk (placeAt l).path .append
          handle.write ⟨(bytes.drop oldBytes.length).toArray⟩
        else IO.FS.writeBinFile (placeAt l).path ⟨bytes.toArray⟩

-- Puts out what has been printed and told, and forgets it.
def flush (s : Session) (before : Tree) : IO Session := do
  IO.print (String.ofList s.printed)
  IO.eprint (String.ofList s.desk.shown)
  writeChanges s before
  return { s with printed := [], desk := { s.desk with shown := [] } }

def milliseconds : Binary64 → Nat
  | .finite false m (.ofNat e) => m * twoTo e * 1000
  | .finite false m (.negSucc e) => m * 1000 / twoTo (e + 1)
  | _ => 0

partial def watch (args : List Text) (w : Watching) (interval : Binary64) : IO Unit := do
  IO.sleep (milliseconds interval).toUInt32
  let t := w.session.tree
  let l := plainLocation (if w.preview.path.isAbsolute then [] else t.home) w.preview.path.parts
  let t ← take args { t with entries := t.entries.filter (·.1 != l) } l
  let w := { w with session := w.session.setTree t }.step
  watch args { w with session := ← flush w.session t } interval

end GherkinView.CommandLine

open GherkinView CommandLine Standard in
def main (args : List String) : IO UInt32 := do
  let args := args.map (·.toList)
  let t ← snapshot args
  match begin args (← environmentVariables) t with
  | .over s ending =>
    let _ ← flush s t
    match ending with
    | .misused => IO.eprintln (String.ofList helpText)
    | .broken e => IO.eprintln (String.ofList e.message)
    | _ => pure ()
    return ending.code.toUInt32
  | .waiting w interval =>
    watch args { w with session := ← flush w.session t } interval
    return 0
