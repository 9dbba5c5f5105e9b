import GherkinView.File.Tree
import GherkinView.Libraries
import GherkinView.Settings.Layer

namespace GherkinView

open File Journal Settings

structure Settings where
  path : Path
  environment : Option Text := none
  variableFile : Option Text := none
  scope : Variables := []
  current : Entries := []
  deriving DecidableEq

namespace Settings

variable [Libraries]

def defaults : Entries :=
  [(.text "output".toList, .mapping [
      (.text "directory".toList, .text "features".toList),
      (.text "format".toList, .text "gherkin".toList)]),
    (.text "parser".toList, .mapping [
      (.text "patterns".toList, .list [
        .text "**/*.spec.ts".toList, .text "**/*.spec.js".toList,
        .text "**/*.test.ts".toList, .text "**/*.test.js".toList])]),
    (.text "logging".toList, .mapping [
      (.text "level".toList, .text "INFO".toList),
      (.text "file".toList, .null)]),
    (.text "watch".toList, .mapping [
      (.text "interval".toList, .scalar (.number (.ofInt 1)))])]

def get (s : Settings) (key : Text) (default : Value) : Value :=
  (Value.mapping s.current).getD key default

-- The environment, if it has a name.
def environment? (s : Settings) : Option Text :=
  s.environment.filter (!·.isEmpty)

def environmentPath (s : Settings) (environment : Text) : Path :=
  (s.path.parent.child "environments".toList).join (.ofText (environment ++ ".yaml".toList))

-- Variables

def implicitVariableFile : Text := ".env".toList

-- The nearest file of that name, in the working directory or above it.
def nearest? (t : Tree) (name : Text) : Option Path :=
  let above := (List.range (t.home.length + 1)).reverse.map fun n => t.home.take n
  (above.map fun l => (⟨['/'], l ++ [name]⟩ : Path)).find? t.isFile

-- A file that is named but is not there is none.
def variablePath? (s : Settings) (t : Tree) : Option Path :=
  match s.variableFile.filter (!·.isEmpty) with
  | some name => if t.isFileNamed name then some (.ofText name) else none
  | none => nearest? t implicitVariableFile

-- The variables that there are with those of the file, and what is told of it.
def readVariables (s : Settings) (t : Tree) : Except Error (Variables × List Record) :=
  match s.variablePath? t with
  | some p => (t.readText p).map (Libraries.loadVariables s.scope)
  | none => .ok (s.scope, [])

-- Files of settings

def unreadError (p : Path) : Unread → Error
  | .malformed => .invalidSettings p
  | .undecodable f => .undecodable f
  | .invalid message => .invalidValue message
  | .endless => .endlessValue

-- The mapping in a file; an empty one counts as an empty mapping.
def readEntries (t : Tree) (p : Path) : Except Error Entries :=
  match t.readBytes p with
  | .error e => .error e
  | .ok bytes =>
    match Libraries.readSettings bytes with
    | .error u => .error (unreadError p u)
    | .ok (.mapping es _) => .ok es
    | .ok (.scalar .null) => .ok []
    | .ok _ => .error (.settingsNotMapping p)

-- A missing file counts as an empty one.
def readMain (s : Settings) (t : Tree) : Except Error Entries :=
  if t.exists? s.path then readEntries t s.path else .ok []

-- The overrides in the file of an environment, and what else it says.
structure Upper where
  overrides : Entries := []
  rest : Entries := []

def overridesKey : Scalar := .text "overrides".toList

def splitOverrides (es : Entries) : Except Error Upper :=
  let rest := es.filter (·.1 != overridesKey)
  match es.get? overridesKey with
  | none => .ok { rest }
  | some (.mapping overrides _) => .ok { overrides, rest }
  | some _ => .error .overridesNotMapping

def missingRecord (p : Path) : Record :=
  ⟨.warning, Channel.settings, "Environment config not found: ".toList ++ p.toText⟩

-- With the file of the environment, or a record that it is missing. Nothing is set in its own mappings any
-- more, so that it does not matter which of them are one.
def readUpper (s : Settings) (t : Tree) : Except Error (Upper × List Record) :=
  match s.environment? with
  | none => .ok ({}, [])
  | some name =>
    let p := s.environmentPath name
    if t.exists? p then ((readEntries t p).map plainEntries >>= splitOverrides).map (·, [])
    else .ok ({}, [missingRecord p])

def Upper.over (u : Upper) (es : Entries) : Entries :=
  merge (override es u.overrides) u.rest

def loadedRecord (s : Settings) : Record :=
  ⟨.info, Channel.settings,
    "Configuration loaded for environment: ".toList ++ s.environment?.getD "default".toList⟩

-- What a load leaves, and why it failed if it did.
structure Loaded where
  settings : Settings
  records : List Record
  failure : Option Error := none

-- With the variables read, the layers from the lowest up: the built-in settings, the main file, and the file of
-- the environment if one is named, its overrides before the rest. Texts that name a variable are replaced at the
-- end.
def loadLayers (s : Settings) (t : Tree) : Loaded :=
  match s.readMain t with
  | .error e => ⟨{ s with current := defaults }, [], some e⟩
  | .ok main =>
    let lower := merge defaults main
    match s.readUpper t with
    | .error e => ⟨{ s with current := plainEntries lower }, [], some e⟩
    | .ok (upper, records) =>
      ⟨{ s with current := substituteEntries s.scope (upper.over lower) },
        records ++ [s.loadedRecord], none⟩

def load (s : Settings) (t : Tree) : Loaded :=
  match s.readVariables t with
  | .error e => ⟨s, [], some e⟩
  | .ok (scope, records) =>
    let loaded := { s with scope }.loadLayers t
    { loaded with records := records ++ loaded.records }

end Settings
end GherkinView
