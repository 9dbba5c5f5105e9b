import GherkinView.Error
import GherkinView.File.Tree
import GherkinView.Gherkin.Format
import GherkinView.Gherkin.Telling
import GherkinView.Journal.Record
import GherkinView.Script.Reading
import GherkinView.Text.Case

namespace GherkinView

open Journal

def counted (n : Nat) (unit : String) : Text :=
  Text.ofNat n ++ ' ' :: unit.toList

-- Steps without a label are told of, in order, and then how much was read.
def Script.readRecords (source : Text) : List Record :=
  let ls := Text.lines source
  let skipped := ((Script.readLines 1 0 ls).filter (·.kind == .unlabelled)).map fun l =>
    "Skipping unlabelled step on line ".toList ++ Text.ofNat l.number
  let summary := "Parsed ".toList ++ counted (Script.read source).suites.length "suite(s)" ++
    " from ".toList ++ counted ls.length "line(s)"
  (skipped ++ [summary]).map (⟨.debug, Channel.reading, ·⟩)

def Gherkin.tellRecords (s : Script) : List Record :=
  [⟨.debug, Channel.telling, "Converted ".toList ++ counted s.suites.length "feature(s)"⟩]

def documentOf (source : Text) : Gherkin.Document :=
  .ofScript (Script.read source)

def documentRecords (source : Text) : List Record :=
  Script.readRecords source ++ Gherkin.tellRecords (Script.read source)

def gherkinOf (source : Text) : Text :=
  (documentOf source).render

def scriptSuffixes : List Text :=
  [".ts".toList, ".js".toList, ".mts".toList, ".cts".toList, ".mjs".toList, ".cjs".toList]

-- Only test scripts are read.
def checkSource (p : File.Path) : Except Error Unit :=
  if scriptSuffixes.contains (Text.lower p.suffix) then .ok () else .error (.unsupportedSource p.name)

def sourceText (t : File.Tree) (p : File.Path) : Except Error Text := do
  checkSource p
  t.readText p

def Gherkin.Document.writeAs (d : Document) (format : Text) (title : Option Text) : Except Error Text :=
  match Format.ofName? format with
  | some f => .ok (d.write title f)
  | none => .error (.unknownFormat format)

end GherkinView
