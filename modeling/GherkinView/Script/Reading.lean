import GherkinView.Script.Basic
import GherkinView.Script.Line

namespace GherkinView.Script

-- What the scan of the lines carries from one to the next.
structure Scan where
  done : List Suite := []
  suite : Option Suite := none
  -- The name and the line of the case that is open.
  opened : Option (Text × Nat) := none
  steps : List Step := []
  inSetup : Bool := false
  inCase : Bool := false
  depth : Int := 0

namespace Scan

-- The open case goes to the suite with its steps, if there are both.
def commitCase (s : Scan) : Scan :=
  match s.opened with
  | some (name, line) =>
    { s with suite := s.suite.map fun u => { u with cases := u.cases ++ [⟨name, s.steps, line⟩] } }
  | none => s

-- Without steps the background stays as it is.
def commitSetup (s : Scan) : Scan :=
  if s.steps.isEmpty then s else { s with suite := s.suite.map ({ · with background := some s.steps }) }

-- What is open when the next suite starts is left out.
def step (s : Scan) (number : Nat) (line : Text) (ls : List Text) : Scan :=
  let s := { s with depth := s.depth + netBraces line }
  match LineKind.of s.depth line ls with
  | .suite name =>
    let suite : Suite := { name, line := number }
    { done := s.done ++ s.suite.toList, suite := some suite, depth := s.depth }
  | .setup => { s.commitCase with opened := none, steps := [], inSetup := true, inCase := false }
  | .case name =>
    let s := s.commitCase
    let s := if s.inSetup then s.commitSetup else s
    { s with opened := some (name, number), steps := [], inSetup := false, inCase := true }
  | .step label code => { s with steps := s.steps ++ [⟨label, code, number⟩] }
  | .close =>
    if s.inCase then { s.commitCase with opened := none, steps := [], inCase := false }
    else if s.inSetup then { s.commitSetup with steps := [], inSetup := false }
    else s
  | .unlabelled | .other => s

def run (s : Scan) (number : Nat) : List Text → Scan
  | [] => s
  | line :: rest => (s.step number line (line :: rest)).run (number + 1) rest

def suites (s : Scan) : List Suite :=
  s.done ++ s.suite.toList

end Scan

def read (source : Text) : Script :=
  ⟨(Scan.run {} 1 (Text.lines source)).suites⟩

end GherkinView.Script
