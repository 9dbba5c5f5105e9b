import GherkinView.CommandLine.Convert
import GherkinView.CommandLine.Watch

namespace GherkinView.CommandLine

open File Number Settings

variable [Libraries]

def versionText : Text := "bddbridge, version 1.0.0".toList

def helpText : Text := Text.unlines [
  "Usage: bddbridge --version".toList,
  "       bddbridge convert PATH [-o OUT] [-f FORMAT] [--stdout] [-e ENV] [-c CONFIG]".toList,
  "       bddbridge preview FILE [-w] [-i SECONDS] [-f FORMAT] [-e ENV] [-c CONFIG]".toList,
  "FORMAT is gherkin, html or json.".toList]

def begin (args : List Text) (scope : Variables) (t : Tree) : Progress :=
  let s : Session := { desk := { tree := t } }
  match Request.read? t args with
  | none => .over s .misused
  | some .version => .over (s.print versionText) .done
  | some .help => .over (s.print helpText) .done
  | some (.convert r) =>
    match start s { path := .ofText r.settings, environment := r.environment, scope } with
    | .ended s ending => .over s ending
    | .ready s settings => let (s, ending) := convert r settings s; .over s ending
  | some (.preview r) =>
    match start s { path := .ofText r.settings, environment := r.environment, scope } with
    | .ended s ending => .over s ending
    | .ready s settings => preview r settings s

structure Outcome where
  session : Session
  ending : Ending
  -- The interval of each wait, also of the last one, in which the command is stopped.
  waits : List Binary64 := []

-- In each wait others edit the tree; after the last edits the command is stopped.
def Progress.finish (edits : List (List Edit)) : Progress → Outcome
  | .over session ending => { session, ending }
  | .waiting w interval =>
    { session := (edits.foldl (fun w es => (w.edit es).step) w).stop
      ending := .done
      waits := List.replicate (edits.length + 1) interval }

def run (args : List Text) (scope : Variables) (t : Tree) (edits : List (List Edit)) : Outcome :=
  (begin args scope t).finish edits

end GherkinView.CommandLine
