import GherkinView.Script.Reading

namespace GherkinView.Script

-- What is collecting steps.
inductive Collector
  | nothing
  | setup (steps : List Step)
  | case (name : Text) (line : Nat) (steps : List Step)

namespace Collector

def add (s : Step) : Collector → Collector
  | nothing => nothing
  | setup steps => setup (steps ++ [s])
  | case name line steps => case name line (steps ++ [s])

def handOverCase (suite : Suite) : Collector → Suite
  | case name line steps => { suite with cases := suite.cases ++ [⟨name, steps, line⟩] }
  | _ => suite

-- A setup without steps leaves the background as it is.
def handOver (suite : Suite) : Collector → Suite
  | setup steps => if steps.isEmpty then suite else { suite with background := some steps }
  | c => c.handOverCase suite

end Collector

-- Inside a suite a case or a setup collects the steps that follow it, until the next marker or a close line at depth
-- zero hands them over. What is still collecting when the next suite starts, or the script ends, is left out.
structure Reader where
  done : List Suite := []
  suite : Option Suite := none
  collector : Collector := .nothing

namespace Reader

def step (r : Reader) (l : Line) : Reader :=
  match l.kind with
  | .suite name => ⟨r.done ++ r.suite.toList, some { name, line := l.number }, .nothing⟩
  | .setup => { r with suite := r.suite.map r.collector.handOverCase, collector := .setup [] }
  | .case name => { r with suite := r.suite.map r.collector.handOver, collector := .case name l.number [] }
  | .step label code => { r with collector := r.collector.add ⟨label, code, l.number⟩ }
  | .close => { r with suite := r.suite.map r.collector.handOver, collector := .nothing }
  | .unlabelled | .other => r

def suites (r : Reader) : List Suite :=
  r.done ++ r.suite.toList

end Reader

def ofLines (ls : List Line) : Script :=
  ⟨(ls.foldl Reader.step {}).suites⟩

namespace Scan

-- A case is open, or a setup is, or there is nothing that the steps count for.
inductive IsCoherent : Scan → Prop
  | inCase (done suite name line steps depth) :
    IsCoherent { done, suite, opened := some (name, line), steps, inCase := true, depth }
  | inSetup (done suite steps depth) : IsCoherent { done, suite, steps, inSetup := true, depth }
  | outside (done suite steps depth) : IsCoherent { done, suite, steps, depth }

def collector (s : Scan) : Collector :=
  match s.opened with
  | some (name, line) => .case name line s.steps
  | none => if s.inSetup then .setup s.steps else .nothing

def reader (s : Scan) : Reader :=
  ⟨s.done, s.suite, s.collector⟩

variable {s : Scan}

-- One step of the scan is one of the reader with the line that it is. Where nothing is committed, a suite that is
-- mapped stays what it is only once it is known to be there or not.
theorem IsCoherent.step (h : s.IsCoherent) (number : Nat) (line : Text) (ls : List Text) :
    (s.step number line ls).IsCoherent ∧ (s.step number line ls).depth = s.depth + netBraces line ∧
      (s.step number line ls).reader = s.reader.step ⟨number, .of (s.depth + netBraces line) line ls⟩ := by
  rw [Scan.step, Reader.step]
  dsimp only
  cases LineKind.of (s.depth + netBraces line) line ls
  case suite => exact ⟨.outside .., rfl, rfl⟩
  case setup =>
    cases h
    case inCase            => exact ⟨.inSetup .., rfl, rfl⟩
    case inSetup suite _ _ => cases suite <;> exact ⟨.inSetup .., rfl, rfl⟩
    case outside suite _ _ => cases suite <;> exact ⟨.inSetup .., rfl, rfl⟩
  case case =>
    cases h
    case inCase                => exact ⟨.inCase .., rfl, rfl⟩
    case inSetup suite steps _ => cases suite <;> cases steps <;> exact ⟨.inCase .., rfl, rfl⟩
    case outside suite _ _     => cases suite <;> exact ⟨.inCase .., rfl, rfl⟩
  case close =>
    cases h
    case inCase                => exact ⟨.outside .., rfl, rfl⟩
    case inSetup suite steps _ => cases suite <;> cases steps <;> exact ⟨.outside .., rfl, rfl⟩
    case outside suite _ _     => cases suite <;> exact ⟨.outside .., rfl, rfl⟩
  case step | unlabelled | other =>
    cases h
    case inCase  => exact ⟨.inCase .., rfl, rfl⟩
    case inSetup => exact ⟨.inSetup .., rfl, rfl⟩
    case outside => exact ⟨.outside .., rfl, rfl⟩

theorem IsCoherent.reader_run (h : s.IsCoherent) (number : Nat) (ls : List Text) :
    (s.run number ls).reader = (readLines number s.depth ls).foldl Reader.step s.reader := by
  induction ls generalizing s number
  case nil => rfl
  case cons line rest hi =>
    have ⟨hc, hd, hr⟩ := h.step number line (line :: rest)
    rw [run, hi hc, hd, hr, readLines, List.foldl_cons]

end Scan

theorem read_eq_ofLines_readLines (source : Text) : read source = ofLines (readLines 1 0 (Text.lines source)) := by
  have h := (Scan.IsCoherent.outside [] none [] 0).reader_run 1 (Text.lines source)
  exact congrArg (fun r : Reader => Script.mk r.suites) h

end GherkinView.Script
