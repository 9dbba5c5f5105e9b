import GherkinView.Proofs.Script.Segment

namespace GherkinView.Script

-- Line `n` is a case line, line `k` the nearest suite line before it, and `rest` follows.
def StandsIn (ls : List Line) (k n : Nat) (rest : List Line) : Prop :=
  ∃ before suite between case,
    ls = before ++ ⟨k, .suite suite⟩ :: (between ++ ⟨n, .case case⟩ :: rest) ∧
      ∀ l ∈ between, l.kind.isSuite = false

-- The lines of the suites that hold a case from line `n`, each as often as they do.
def homesIn (ss : List Suite) (n : Int) : List Int :=
  ss.flatMap fun s => (s.cases.filter (·.line = n)).map fun _ => s.line

-- Every case line behind a suite line is one case, and one of the nearest suite.
def KeepsCases (source : Text) : Prop :=
  ∀ k n rest, StandsIn (classify (Text.lines source)) k n rest →
    homesIn (read source).suites n = [↑k]

namespace Retention

variable {l : Line} {ls : List Line} {n : Nat}

-- The cases of a segment that come from line `n`.
def casesAt (ls : List Line) (n : Nat) : List Case :=
  ((segment ls).filterMap caseFrom?).filter (·.line = (n : Int))

theorem caseFrom?_line {c : Case} (h : caseFrom? (l :: ls) = some c) : c.line = l.number := by
  unfold caseFrom? at h
  split at h <;> simp at h
  case h_1 heq => cases heq; simp [← h.right]

theorem casesAt_cons :
    casesAt (l :: ls) n = if l.kind.isSuite then [] else
      (caseFrom? (l :: ls)).toList.filter (·.line = (n : Int)) ++ casesAt ls n := by
  rw [casesAt, segment_cons]
  cases l.kind.isSuite
  case true  => rfl
  case false =>
    simp only [Bool.false_eq_true, if_false, List.filterMap_cons, casesAt]
    cases caseFrom? (l :: ls) <;> simp [List.filter_cons]
    split <;> rfl

theorem casesAt_cons_of_ne (h : l.number ≠ n) :
    casesAt (l :: ls) n = if l.kind.isSuite then [] else casesAt ls n := by
  rw [casesAt_cons]
  cases hc : caseFrom? (l :: ls)
  case none   => rfl
  case some c =>
    have hn : c.line ≠ n := fun he => h (Int.ofNat.inj ((caseFrom?_line hc).symm.trans he))
    simp [hn]

-- The cases of a segment come from its own lines.
theorem casesAt_eq_nil (h : ∀ l ∈ ls, l.number ≠ n) : casesAt ls n = [] := by
  induction ls
  case nil => simp [casesAt, segment, startsInSegment]
  case cons l rest hi =>
    have hr := hi fun l hl => h l (List.mem_cons_of_mem _ hl)
    rw [casesAt_cons_of_ne (h l List.mem_cons_self), hr, ite_self]

theorem casesAt_append_suite {before after : List Line} {k : Nat} {suite : Text}
    (h : ∀ l ∈ before, l.number ≠ n) :
    casesAt (before ++ ⟨k, .suite suite⟩ :: after) n = [] := by
  induction before
  case nil => simp [casesAt_cons, LineKind.isSuite]
  case cons l rest hi =>
    have hr := hi fun l hl => h l (List.mem_cons_of_mem _ hl)
    rw [List.cons_append, casesAt_cons_of_ne (h l List.mem_cons_self), hr, ite_self]

theorem casesAt_append_case {between rest : List Line} {case : Text}
    (hs : ∀ l ∈ between, l.kind.isSuite = false) (hb : ∀ l ∈ between, l.number ≠ n)
    (hr : ∀ l ∈ rest, l.number ≠ n) :
    casesAt (between ++ ⟨n, .case case⟩ :: rest) n =
      if handsOver rest then [⟨case, stepsAhead rest, n⟩] else [] := by
  induction between
  case nil =>
    rw [List.nil_append, casesAt_cons, casesAt_eq_nil hr]
    cases h : handsOver rest <;> simp [caseFrom?, LineKind.isSuite, h]
  case cons l between hi =>
    simp only [List.mem_cons, forall_eq_or_imp] at hs hb
    rw [List.cons_append, casesAt_cons_of_ne hb.left, hi hs.right hb.right, hs.left]
    rfl

theorem homesIn_segmented_cons :
    homesIn (segmented (l :: ls)) n =
      (if l.kind.isSuite then (casesAt ls n).map fun _ => (l.number : Int) else []) ++
        homesIn (segmented ls) n := by
  have ⟨number, kind⟩ := l
  cases kind <;> simp [segmented_cons, suiteFrom?, homesIn, LineKind.isSuite, casesAt]

theorem homesIn_segmented_append {as bs : List Line} (h : ∀ l ∈ as, l.kind.isSuite = false) :
    homesIn (segmented (as ++ bs)) n = homesIn (segmented bs) n := by
  induction as
  case nil => rfl
  case cons l as hi =>
    simp only [List.mem_cons, forall_eq_or_imp] at h
    rw [List.cons_append, homesIn_segmented_cons, hi h.right, h.left]
    rfl

theorem homesIn_segmented_eq_nil (h : ∀ l ∈ ls, l.number ≠ n) : homesIn (segmented ls) n = [] := by
  induction ls
  case nil => rfl
  case cons l rest hi =>
    simp only [List.mem_cons, forall_eq_or_imp] at h
    simp [homesIn_segmented_cons, casesAt_eq_nil h.right, hi h.right]

end Retention

open Retention in
-- Induction on the lines before the suite line: no suite opened there reaches past it.
theorem homesIn_segmented {ls rest : List Line} {k n : Nat} (h : StandsIn ls k n rest)
    (hn : (ls.map Line.number).Nodup) :
    homesIn (segmented ls) n = if handsOver rest then [↑k] else [] := by
  obtain ⟨before, suite, between, case, rfl, hs⟩ := h
  simp only [List.map_append, List.map_cons, List.nodup_append, List.nodup_cons, List.mem_append,
    List.mem_cons, List.mem_map] at hn
  have hb : ∀ l ∈ before, l.number ≠ n := by grind
  have hm : ∀ l ∈ between, l.number ≠ n := by grind
  have hr : ∀ l ∈ rest, l.number ≠ n := by grind
  clear hn
  induction before
  case nil =>
    rw [List.nil_append, homesIn_segmented_cons, casesAt_append_case hs hm hr,
      homesIn_segmented_append hs, homesIn_segmented_cons, homesIn_segmented_eq_nil hr]
    cases handsOver rest <;> simp [LineKind.isSuite]
  case cons l before hi =>
    simp only [List.mem_cons, forall_eq_or_imp] at hb
    rw [List.cons_append, homesIn_segmented_cons, casesAt_append_suite hb.right, hi hb.right]
    simp

-- A script keeps its cases exactly if each of them is handed over before another suite opens.
theorem keepsCases_iff (source : Text) :
    KeepsCases source ↔
      ∀ k n rest, StandsIn (classify (Text.lines source)) k n rest → handsOver rest := by
  have hh {k n rest} (h : StandsIn (classify (Text.lines source)) k n rest) :=
    homesIn_segmented h (nodup_number_classify _)
  simp only [KeepsCases, read_eq_ofLines, suites_ofLines]
  constructor
  case mp =>
    intro hk k n rest h
    have := (hk k n rest h).symm.trans (hh h)
    by_contra hc
    simp [hc] at this
  case mpr =>
    intro hk k n rest h
    rw [hh h, if_pos (hk k n rest h)]

namespace Retention

-- A suite opens behind the case, inside of the first suite.
def nested : Text := Text.unlines [
  "test.describe('A', () => \x7b".toList,
  "  test('x', async () => \x7b".toList,
  "  \x7d);".toList,
  "  test.describe('B', () => \x7b".toList,
  "  \x7d);".toList,
  "\x7d);".toList]

-- The last close line holds more than the close.
def commented : Text := Text.unlines [
  "test.describe('A', () => \x7b".toList,
  "  test('x', async () => \x7b".toList,
  "  \x7d);".toList,
  "\x7d); // A".toList]

theorem standsIn_nested :
    StandsIn (classify (Text.lines nested)) 1 2 ((classify (Text.lines nested)).drop 2) :=
  ⟨[], ['A'], [], ['x'], by decide +kernel, by simp⟩

theorem standsIn_commented :
    StandsIn (classify (Text.lines commented)) 1 2 ((classify (Text.lines commented)).drop 2) :=
  ⟨[], ['A'], [], ['x'], by decide +kernel, by simp⟩

end Retention

open Retention in
-- Balanced braces are not enough.
theorem balanced_not_keepsCases :
    (Balanced (Text.lines nested) ∧ ¬KeepsCases nested) ∧
      Balanced (Text.lines commented) ∧ ¬KeepsCases commented := by
  refine ⟨⟨by decide +kernel, fun h => ?nested⟩, by decide +kernel, fun h => ?commented⟩
  case nested =>
    have hh : homesIn (read nested).suites 2 = [] := by decide +kernel
    have := hh.symm.trans (h 1 2 _ standsIn_nested)
    contradiction
  case commented =>
    have hh : homesIn (read commented).suites 2 = [] := by decide +kernel
    have := hh.symm.trans (h 1 2 _ standsIn_commented)
    contradiction

end GherkinView.Script
