import GherkinView.File.Tree
import GherkinView.Gherkin.Format
import GherkinView.Libraries
import GherkinView.Number.Reading

namespace GherkinView.CommandLine

open File Gherkin Number

structure ConvertRequest where
  path : Text
  out : Option Text
  format : Option Format
  -- Print the results instead of writing files.
  print : Bool
  environment : Option Text
  settings : Text
  deriving DecidableEq

structure PreviewRequest where
  path : Text
  watch : Bool
  interval : Option Binary64
  format : Format
  environment : Option Text
  settings : Text
  deriving DecidableEq

inductive Request
  | version
  | help
  | convert (r : ConvertRequest)
  | preview (r : PreviewRequest)
  deriving DecidableEq

namespace Request

def versionName : Text := "version".toList

def helpName : Text := "help".toList

def helpKind : OptionKind := { name := helpName }

def programKinds : List OptionKind :=
  [{ name := versionName }, helpKind]

def outKind : OptionKind :=
  { name := "out".toList, letter := some 'o', takesValue := true }

def formatKind : OptionKind :=
  { name := "format".toList, letter := some 'f', takesValue := true }

def printKind : OptionKind :=
  { name := "stdout".toList }

def environmentKind : OptionKind :=
  { name := "env".toList, letter := some 'e', takesValue := true }

def settingsKind : OptionKind :=
  { name := "config".toList, letter := some 'c', takesValue := true }

def watchKind : OptionKind :=
  { name := "watch".toList, letter := some 'w' }

def intervalKind : OptionKind :=
  { name := "interval".toList, letter := some 'i', takesValue := true }

def convertKinds : List OptionKind :=
  [outKind, formatKind, printKind, environmentKind, settingsKind, helpKind]

def previewKinds : List OptionKind :=
  [watchKind, intervalKind, formatKind, environmentKind, settingsKind, helpKind]

def defaultSettings : Text := "config/config.yaml".toList

-- The value of an option that may be missing, but not wrong.
def readValue? (ws : Words) (k : OptionKind) (read? : Text → Option α) : Option (Option α) :=
  match ws.value? k.name with
  | none => some none
  | some v => (read? v).map some

def readConvert? (t : Tree) (ws : Words) : Option ConvertRequest := do
  let [path] := ws.others | none
  let format ← readValue? ws formatKind Format.ofName?
  if (t.named? path).isNone then none
  return {
    path, format
    out := ws.value? outKind.name
    print := ws.has printKind.name
    environment := ws.value? environmentKind.name
    settings := (ws.value? settingsKind.name).getD defaultSettings }

def readPreview? (t : Tree) (ws : Words) : Option PreviewRequest := do
  let [path] := ws.others | none
  let format ← readValue? ws formatKind Format.ofName?
  let interval ← readValue? ws intervalKind Number.read?
  if !t.isFileNamed path then none
  return {
    path, interval
    watch := ws.has watchKind.name
    format := format.getD .gherkin
    environment := ws.value? environmentKind.name
    settings := (ws.value? settingsKind.name).getD defaultSettings }

-- The words of a command, unless help is asked for.
def readCommand? [Libraries] (kinds : List OptionKind) (read? : Words → Option Request) (ws : List Text) :
    Option Request := do
  let ws ← Libraries.readWords? kinds true ws
  if ws.has helpName then return help else read? ws

def read? [Libraries] (t : Tree) (args : List Text) : Option Request := do
  let ws ← Libraries.readWords? programKinds false args
  match ws.options, ws.others with
  | o :: _, _ => return if o.name = versionName then version else help
  | [], command :: ws =>
    if command = "convert".toList then
      readCommand? convertKinds (fun ws => (readConvert? t ws).map convert) ws
    else if command = "preview".toList then
      readCommand? previewKinds (fun ws => (readPreview? t ws).map preview) ws
    else none
  | [], [] => none

end Request
end GherkinView.CommandLine
