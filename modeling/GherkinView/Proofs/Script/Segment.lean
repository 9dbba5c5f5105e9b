import Mathlib.Data.List.Infix
import GherkinView.Proofs.Script.Depth
import GherkinView.Proofs.Script.Reader

namespace GherkinView.Script

namespace LineKind

def isSuite : LineKind → Bool
  | suite _ => true
  | _ => false

-- Boundaries end what a case or a setup collects.
def isBoundary : LineKind → Bool
  | suite _ | setup | case _ | close => true
  | _ => false

def isCaseOrClose : LineKind → Bool
  | case _ | close => true
  | _ => false

end LineKind

def Line.step? (l : Line) : Option Step :=
  match l.kind with
  | .step label code => some ⟨label, code, l.number⟩
  | _ => none

def boundaryAhead? (ls : List Line) : Option LineKind :=
  (ls.map Line.kind).find? LineKind.isBoundary

-- The labelled steps up to the next boundary, or the end.
def stepsAhead (ls : List Line) : List Step :=
  (ls.takeWhile (!·.kind.isBoundary)).filterMap Line.step?

-- The next boundary is there and does not open another suite.
def handsOver (ls : List Line) : Bool :=
  (boundaryAhead? ls).any (!·.isSuite)

-- The case of the first line, if it is a case line that is handed over.
def caseFrom? : List Line → Option Case
  | ⟨number, .case name⟩ :: rest =>
    if handsOver rest then some ⟨name, stepsAhead rest, number⟩ else none
  | _ => none

-- The background of the first line, if it is a setup line that has one.
def backgroundFrom? : List Line → Option (List Step)
  | ⟨_, .setup⟩ :: rest =>
    if (boundaryAhead? rest).any (·.isCaseOrClose) && !(stepsAhead rest).isEmpty then
      some (stepsAhead rest)
    else none
  | _ => none

def startsInSegment : List Line → Bool
  | [] => false
  | l :: _ => !l.kind.isSuite

-- The lines up to the next suite line, each with all that follows it.
def segment (ls : List Line) : List (List Line) :=
  ls.tails.takeWhile startsInSegment

-- The suite of the first line, if it is a suite line. Of several backgrounds the last one counts.
def suiteFrom? : List Line → Option Suite
  | ⟨number, .suite name⟩ :: rest =>
    some {
      name, line := number
      cases := (segment rest).filterMap caseFrom?
      background := ((segment rest).filterMap backgroundFrom?).getLast? }
  | _ => none

def segmented (ls : List Line) : List Suite :=
  ls.tails.filterMap suiteFrom?

section Cons

variable (l : Line) (ls : List Line)

@[simp]
theorem boundaryAhead?_cons :
    boundaryAhead? (l :: ls) = if l.kind.isBoundary then some l.kind else boundaryAhead? ls := by
  simp only [boundaryAhead?, List.map_cons, List.find?_cons]
  cases l.kind.isBoundary <;> rfl

@[simp]
theorem handsOver_cons :
    handsOver (l :: ls) = if l.kind.isBoundary then !l.kind.isSuite else handsOver ls := by
  cases h : l.kind.isBoundary <;> simp [handsOver, h]

@[simp]
theorem stepsAhead_cons :
    stepsAhead (l :: ls) = if l.kind.isBoundary then [] else l.step?.toList ++ stepsAhead ls := by
  cases h : l.kind.isBoundary <;> simp [stepsAhead, h, List.filterMap_cons]
  cases l.step? <;> rfl

@[simp]
theorem segment_cons :
    segment (l :: ls) = if l.kind.isSuite then [] else (l :: ls) :: segment ls := by
  cases h : l.kind.isSuite <;> simp [segment, startsInSegment, h]

theorem segmented_cons :
    segmented (l :: ls) = (suiteFrom? (l :: ls)).toList ++ segmented ls := by
  simp only [segmented, List.tails_cons, List.filterMap_cons]
  cases suiteFrom? (l :: ls) <;> rfl

end Cons

namespace Collector

-- The case that comes of what has been collected when `ls` is still to be read.
def case? (c : Collector) (ls : List Line) : Option Case :=
  match c with
  | case name line steps =>
    if handsOver ls then some ⟨name, steps ++ stepsAhead ls, line⟩ else none
  | _ => none

def background? (c : Collector) (ls : List Line) : Option (List Step) :=
  match c with
  | setup steps =>
    if (boundaryAhead? ls).any (·.isCaseOrClose) && !(steps ++ stepsAhead ls).isEmpty then
      some (steps ++ stepsAhead ls)
    else none
  | _ => none

end Collector

-- What becomes of a suite, with what is being collected in it, when `ls` is still to be read.
def Suite.finish (s : Suite) (c : Collector) (ls : List Line) : Suite :=
  { s with
    cases := s.cases ++ (c.case? ls).toList ++ (segment ls).filterMap caseFrom?
    background :=
      ((segment ls).filterMap backgroundFrom?).getLast?.or ((c.background? ls).or s.background) }

namespace Suite

variable (s : Suite) (c : Collector) (number : Nat) (ls : List Line)

theorem finish_nil : s.finish c [] = s := by
  cases c <;> simp [finish, segment, Collector.case?, Collector.background?, handsOver,
    boundaryAhead?, startsInSegment]

theorem finish_suite (name : Text) : s.finish c (⟨number, .suite name⟩ :: ls) = s := by
  cases c <;> simp [finish, Collector.case?, Collector.background?, LineKind.isSuite,
    LineKind.isBoundary, LineKind.isCaseOrClose]

theorem finish_cons {l : Line} (h : l.kind.isSuite = false) :
    s.finish c (l :: ls) = { s with
      cases := s.cases ++ (c.case? (l :: ls)).toList ++ (caseFrom? (l :: ls)).toList ++
        (segment ls).filterMap caseFrom?
      background := ((segment ls).filterMap backgroundFrom?).getLast?.or
        ((backgroundFrom? (l :: ls)).or ((c.background? (l :: ls)).or s.background)) } := by
  simp only [finish, segment_cons, h, Bool.false_eq_true, if_false, List.filterMap_cons, mk.injEq]
  refine ⟨trivial, ?cases, trivial, ?background⟩
  case cases      => cases caseFrom? (l :: ls) <;> simp
  case background => cases backgroundFrom? (l :: ls) <;> simp [List.getLast?_cons]

theorem finish_setup :
    s.finish c (⟨number, .setup⟩ :: ls) = (c.handOverCase s).finish (.setup []) ls := by
  rw [finish_cons _ _ _ rfl]
  cases c <;> simp [finish, caseFrom?, backgroundFrom?, Collector.case?, Collector.background?,
    Collector.handOverCase, LineKind.isSuite, LineKind.isBoundary, LineKind.isCaseOrClose]

theorem finish_case (name : Text) :
    s.finish c (⟨number, .case name⟩ :: ls) = (c.handOver s).finish (.case name number []) ls := by
  rw [finish_cons _ _ _ rfl]
  cases c <;> simp [finish, caseFrom?, backgroundFrom?, Collector.case?, Collector.background?,
    Collector.handOver, Collector.handOverCase, LineKind.isSuite, LineKind.isBoundary,
    LineKind.isCaseOrClose]
  case setup steps => cases steps <;> simp

theorem finish_close :
    s.finish c (⟨number, .close⟩ :: ls) = (c.handOver s).finish .nothing ls := by
  rw [finish_cons _ _ _ rfl]
  cases c <;> simp [finish, caseFrom?, backgroundFrom?, Collector.case?, Collector.background?,
    Collector.handOver, Collector.handOverCase, LineKind.isSuite, LineKind.isBoundary,
    LineKind.isCaseOrClose]
  case setup steps => cases steps <;> simp

-- Lines between boundaries change only what is being collected.
theorem finish_step (label code : Text) :
    s.finish c (⟨number, .step label code⟩ :: ls) = s.finish (c.add ⟨label, code, number⟩) ls := by
  rw [finish_cons _ _ _ rfl]
  cases c <;> simp [finish, caseFrom?, backgroundFrom?, Collector.case?, Collector.background?,
    Collector.add, Line.step?, LineKind.isBoundary]

theorem finish_passed {kind : LineKind} (h : kind = .unlabelled ∨ kind = .other) :
    s.finish c (⟨number, kind⟩ :: ls) = s.finish c ls := by
  obtain rfl | rfl := h
  all_goals
    rw [finish_cons _ _ _ rfl]
    cases c <;> simp [finish, caseFrom?, backgroundFrom?, Collector.case?, Collector.background?,
      Line.step?, LineKind.isBoundary]

end Suite

theorem suiteFrom?_suite (number : Nat) (name : Text) (ls : List Line) :
    suiteFrom? (⟨number, .suite name⟩ :: ls) =
      some (Suite.finish { name, line := number } .nothing ls) := by
  simp [suiteFrom?, Suite.finish, Collector.case?, Collector.background?]

-- Induction on the lines: what the reader holds, finished by the lines that are still to be read,
-- and then the suites that these open.
theorem suites_foldl (r : Reader) (ls : List Line) :
    (ls.foldl Reader.step r).suites =
      r.done ++ (r.suite.map fun s => s.finish r.collector ls).toList ++ segmented ls := by
  induction ls generalizing r
  case nil => cases h : r.suite <;> simp [Reader.suites, segmented, suiteFrom?, Suite.finish_nil, h]
  case cons l rest hi =>
    have ⟨number, kind⟩ := l
    rw [List.foldl_cons, hi, segmented_cons]
    cases kind
    case suite => cases h : r.suite <;> simp [Reader.step, h, suiteFrom?_suite, Suite.finish_suite]
    all_goals
      cases h : r.suite <;> simp [Reader.step, h, suiteFrom?, Suite.finish_setup, Suite.finish_case,
        Suite.finish_close, Suite.finish_step, Suite.finish_passed]

theorem suites_ofLines (ls : List Line) : (ofLines ls).suites = segmented ls := by
  simp [ofLines, suites_foldl]

theorem read_eq_ofLines (source : Text) : read source = ofLines (classify (Text.lines source)) := by
  rw [read_eq_ofLines_readLines, readLines_eq_classify]

-- Reading comes to the suites of the lines, each taken by itself.
theorem suites_read_eq_segmented (source : Text) :
    (read source).suites = segmented (classify (Text.lines source)) := by
  rw [read_eq_ofLines, suites_ofLines]

end GherkinView.Script
