import GherkinView.CommandLine.Session
import GherkinView.Conversion
import GherkinView.Report

namespace GherkinView.CommandLine

open File Gherkin Journal Settings

variable [Libraries]

-- What is the same for all scripts.
structure Job where
  root : Path
  out : Path
  format : Format
  print : Bool

structure Batch where
  session : Session
  written : List Path := []
  failures : Nat := 0

namespace Batch

def tell (b : Batch) (level : Level) (message : Text) : Batch :=
  { b with session := b.session.tell level message }

def fail (b : Batch) (source : Path) (e : Error) : Batch :=
  let told := b.tell .error
    ("Conversion failed for ".toList ++ source.toText ++ ": ".toList ++ e.message)
  { told with failures := b.failures + 1 }

end Batch

-- Where the result goes, and what was meant first if that is taken.
structure Place where
  path : Path
  taken : Option Path := none

-- A target that is taken already gets the suffix of its source, too.
def Job.place (job : Job) (t : Tree) (written : List Path) (source : Path) : Except Error Place := do
  let p ← target t source job.root job.out job.format false
  if written.contains p then
    return { path := ← target t source job.root job.out job.format true, taken := some p }
  else return { path := p }

def overwriteText (source taken path : Path) : Text :=
  source.toText ++ " would overwrite ".toList ++ taken.toText ++ ", writing ".toList ++ path.name ++
    " instead".toList

-- Writes a file, with the directories above it.
def save (t : Tree) (p : Path) (text : Text) : Tree × Option Error :=
  match t.makeDirectories p.parent with
  | .error e => (t, some e)
  | .ok t =>
    match t.writeText p text with
    | .error e => (t, some e)
    | .ok t => (t, none)

def Job.write (job : Job) (b : Batch) (source : Path) (d : Document) (content : Text) : Batch :=
  match job.place b.session.tree b.written source with
  | .error e => b.fail source e
  | .ok place =>
    let b := match place.taken with
      | some taken => b.tell .warning (overwriteText source taken place.path)
      | none => b
    let b := { b with written := place.path :: b.written }
    match save b.session.tree place.path (content ++ ['\n']) with
    | (t, some e) => { b with session := b.session.setTree t }.fail source e
    | (t, none) => { b with session := b.session.setTree t }.tell .info
        (source.toText ++ " -> ".toList ++ place.path.toText ++
          " (".toList ++ counted d.features.length "feature(s)" ++ [')'])

def Job.convert (job : Job) (b : Batch) (source : Path) : Batch :=
  match sourceText b.session.tree source with
  | .error e => b.fail source e
  | .ok text =>
    let d := documentOf text
    let b := { b with session := b.session.tellAll (documentRecords text) }
    let content := d.write (some source.name) job.format
    if job.print then { b with session := b.session.print content }
    else job.write b source d content

def Job.run (job : Job) (s : Session) (sources : List Path) : Session × Ending :=
  let found := s.tell .info ("Found ".toList ++ counted sources.length "test script(s) to convert")
  let b := sources.foldl job.convert { session := found }
  if b.failures = 0 then (b.session, .done)
  else ((b.tell .error ("Completed with ".toList ++ counted b.failures "failure(s)")).session, .failed)

-- What the settings say

-- The format that the settings name, or the name if there is no such format.
def formatOf (v : Value) : Except Error (Except Text Format) :=
  match v with
  | .scalar (.text t) =>
    match Format.ofName? t with
    | some f => .ok (.ok f)
    | none => .ok (.error t)
  | .scalar s => .ok (.error s.shown)
  | _ => .error .wrongKind

def outOf (v : Value) : Except Error Path :=
  match v with
  | .scalar (.text t) => .ok (.ofText t)
  | _ => .error .wrongKind

def patternOf (v : Value) : Except Error Text :=
  match v with
  | .scalar (.text t) => .ok t
  | v =>
    if !v.isGiven then .error (.pattern (.nothing v.nothingShown))
    else if v matches .mapping .. then .error (.pattern .mapping)
    else .error .wrongKind

-- A text stands for its characters, and a mapping for its keys.
def patternsOf (v : Value) : Except Error (List Value) :=
  if !v.isGiven then .ok (defaultPatterns.map .text)
  else match v with
    | .scalar (.text t) => .ok (t.map fun c => .text [c])
    | .list items => .ok items
    | .mapping es _ => .ok (es.map fun (k, _) => .scalar k)
    | .scalar _ => .error .wrongKind

def sourcesOf (t : Tree) (root : Path) (v : Value) : Except Error (List Path) := do
  if t.isFile root then return [root]
  let found ← (← patternsOf v).mapM fun p => do t.filesMatching root (← patternOf p)
  return sortedOnce found.flatten

-- The job, or how the command ends without one.
def jobOf (r : ConvertRequest) (settings : Settings) (s : Session) : Except (Session × Ending) Job := do
  let broken := fun {α : Type} (x : Except Error α) => x.mapError fun e => (s, Ending.broken e)
  let format ← match r.format with
    | some f => pure f
    | none =>
      match ← broken (formatOf (settings.get "output.format".toList (.text Format.gherkin.name))) with
      | .ok f => pure f
      | .error name => throw (s.complain ("unknown output format '".toList ++ name ++ ['\x27']), .failed)
  let out ← match r.out.filter (!·.isEmpty) with
    | some t => pure (.ofText t)
    | none => broken (outOf (settings.get "output.directory".toList (.text "features".toList)))
  return ⟨.ofText r.path, out, format, r.print⟩

def convert (r : ConvertRequest) (settings : Settings) (s : Session) : Session × Ending :=
  match jobOf r settings s with
  | .error ended => ended
  | .ok job =>
    match sourcesOf s.tree job.root (settings.get "parser.patterns".toList .null) with
    | .error e => (s, .broken e)
    | .ok [] => (s.tell .warning ("No test scripts found under ".toList ++ r.path), .done)
    | .ok sources => job.run s sources

end GherkinView.CommandLine
