import GherkinView.Conversion
import GherkinView.File.Tree

namespace GherkinView

open File Journal

structure Preview where
  path : Path
  -- The name of the format, which need not be one.
  format : Text := Gherkin.Format.gherkin.name
  content : Text := []
  lastError : Option Text := none
  lastStamp : Option Stamp := none
  deriving DecidableEq

namespace Preview

def record (level : Level) (message : Text) : Record :=
  ⟨level, Channel.program, message⟩

-- The new content and how many features it has, with the records up to there.
def view (p : Preview) (t : Tree) : List Record × Except Error (Text × Nat) :=
  match sourceText t p.path with
  | .error e => ([], .error e)
  | .ok source =>
    let d := documentOf source
    (record .debug ("Source code length: ".toList ++ Text.ofNat source.length) :: documentRecords source,
      (d.writeAs p.format (some p.path.name)).map (·, d.features.length))

structure Refreshed where
  updated : Bool
  preview : Preview
  records : List Record

-- A refresh that fails leaves the view as it was and remembers why.
def refresh (p : Preview) (t : Tree) : Refreshed :=
  match p.view t with
  | (records, .ok (content, features)) =>
    let told := record .info ("Preview updated: ".toList ++ counted features "feature(s)")
    ⟨true, { p with content, lastError := none }, records ++ [told]⟩
  | (records, .error e) =>
    let told := record .error
      ("Error refreshing preview of ".toList ++ p.path.toText ++ ": ".toList ++ e.message)
    ⟨false, { p with lastError := some e.message }, records ++ [told]⟩

-- Whether the file's stamp is another than at the last look; a missing file is not looked at.
def look (p : Preview) (t : Tree) : Bool × Preview :=
  match t.stamp? p.path with
  | none => (false, p)
  | some s => (p.lastStamp != some s, { p with lastStamp := some s })

def refreshIfChanged (p : Preview) (t : Tree) : Refreshed :=
  match p.look t with
  | (true, p) => p.refresh t
  | (false, p) => ⟨false, p, []⟩

end Preview
end GherkinView
