import GherkinView.Script.Block
import GherkinView.Script.Marker
import GherkinView.Text.Quote

namespace GherkinView.Script

inductive LineKind
  | suite (name : Text)
  | setup
  | case (name : Text)
  | step (label code : Text)
  | unlabelled
  | close
  | other
  deriving DecidableEq

structure Line where
  number : Nat
  kind : LineKind
  deriving DecidableEq

def unnamedSuite : Text := "Unnamed Test Suite".toList

def unnamedCase : Text := "Unnamed Test".toList

-- The first literal of a marker line, unless there is none or it is empty.
def labelOf? (t : Text) : Option Text :=
  (Text.firstLiteral? t).filter (!·.isEmpty)

-- `line` is the first of `ls`, and `depth` the running depth with it.
def LineKind.of (depth : Int) (line : Text) (ls : List Text) : LineKind :=
  let t := Text.trim line
  if Marker.isSuite t then .suite ((labelOf? t).getD unnamedSuite)
  else if Marker.isSetup t then .setup
  else if Marker.isCase t then .case ((labelOf? t).getD unnamedCase)
  else if Marker.isStep t then
    match labelOf? t with
    | some label => .step label (captureBlock ls)
    | none => .unlabelled
  else if Marker.isClose t && depth == 0 then .close
  else .other

def readLines (number : Nat) (depth : Int) : List Text → List Line
  | [] => []
  | line :: rest =>
    let depth' := depth + netBraces line
    ⟨number, .of depth' line (line :: rest)⟩ :: readLines (number + 1) depth' rest

end GherkinView.Script
