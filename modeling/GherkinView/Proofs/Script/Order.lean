import Mathlib.Data.List.Flatten
import Mathlib.Data.List.Perm.Subperm
import GherkinView.Proofs.Script.Provenance

open scoped List

namespace GherkinView.Script

def stepLines (steps : List Step) : List Int :=
  steps.map (·.line)

-- The line of the case, and then those of its steps.
def Case.lines (c : Case) : List Int :=
  c.line :: stepLines c.steps

-- The lines of what stands in the suite.
def Suite.lines (u : Suite) : List Int :=
  stepLines (u.background.getD []) ++ u.cases.flatMap Case.lines

-- What is taken for the background or the case of the first line.
def blockLines (ls : List Line) : List Int :=
  stepLines ((backgroundFrom? ls).getD []) ++ (caseFrom? ls).toList.flatMap Case.lines

def segmentLines (ls : List Line) : List Int :=
  (segment ls).flatMap blockLines

-- What is taken for the suite of the first line, with the backgrounds that do not count.
def suiteLines : List Line → List Int
  | ⟨number, .suite _⟩ :: rest => number :: segmentLines rest
  | _ => []

def numbers (ls : List Line) : List Int :=
  ls.map fun l => (l.number : Int)

theorem segmentLines_cons (l : Line) (ls : List Line) :
    segmentLines (l :: ls) = if l.kind.isSuite then [] else blockLines (l :: ls) ++ segmentLines ls := by
  rw [segmentLines, segment_cons]
  split <;> rfl

theorem blockLines_setup (number : Nat) (ls : List Line) :
    blockLines (⟨number, .setup⟩ :: ls) <+ stepLines (stepsAhead ls) := by
  rw [blockLines, backgroundFrom?]
  split
  case isTrue  => exact (List.append_nil _).symm ▸ List.Sublist.refl _
  case isFalse => exact List.nil_sublist _

theorem blockLines_case (number : Nat) (name : Text) (ls : List Line) :
    blockLines (⟨number, .case name⟩ :: ls) <+ number :: stepLines (stepsAhead ls) := by
  rw [blockLines, caseFrom?]
  split
  case isTrue  => exact (List.flatMap_singleton Case.lines _).symm ▸ List.Sublist.refl _
  case isFalse => exact List.nil_sublist _

-- Induction on the lines. The steps ahead stand before the next boundary, and what is taken for the
-- segment before the next suite line.
theorem lines_sublist (ls : List Line) :
    stepLines (stepsAhead ls) ++ (segmentLines ls ++ ls.tails.flatMap suiteLines) <+ numbers ls := by
  induction ls
  case nil => exact List.Sublist.refl []
  case cons l ls hi =>
    have ⟨number, kind⟩ := l
    have hb : segmentLines ls ++ ls.tails.flatMap suiteLines <+ numbers ls :=
      (List.sublist_append_right _ _).trans hi
    rw [List.tails_cons, List.flatMap_cons, stepsAhead_cons, segmentLines_cons]
    cases kind <;> simp only [LineKind.isBoundary, LineKind.isSuite, if_true, Bool.false_eq_true, if_false]
    case suite           => exact hb.cons_cons _
    case step label code => exact hi.cons_cons _
    case close           => exact hb.cons _
    case unlabelled      => exact hi.cons _
    case other           => exact hi.cons _
    case setup =>
      have := (blockLines_setup number ls).append_right (segmentLines ls ++ ls.tails.flatMap suiteLines)
      rw [← List.append_assoc] at this
      exact (this.trans hi).cons _
    case case name =>
      have := (blockLines_case number name ls).append_right (segmentLines ls ++ ls.tails.flatMap suiteLines)
      rw [← List.append_assoc] at this
      exact this.trans (hi.cons_cons _)

-- The lines of the suite are among `ns`, and those of its parts come as they do there.
structure Suite.Takes (u : Suite) (ns : List Int) : Prop where
  lines : u.lines <+~ ns
  cases : u.cases.flatMap Case.lines <+ ns
  background : ∀ steps ∈ u.background, stepLines steps <+ ns

theorem takes_segment (number : Int) (name : Text) (rest : List Line) :
    Suite.Takes ⟨name, (segment rest).filterMap caseFrom?, number,
      ((segment rest).filterMap backgroundFrom?).getLast?⟩ (segmentLines rest) := by
  have hc : ((segment rest).filterMap caseFrom?).flatMap Case.lines =
      (segment rest).flatMap fun t => (caseFrom? t).toList.flatMap Case.lines := by
    rw [List.filterMap_eq_flatMap_toList, List.flatMap_assoc]
  have hb : ∀ steps ∈ ((segment rest).filterMap backgroundFrom?).getLast?,
      stepLines steps <+ (segment rest).flatMap fun t => stepLines ((backgroundFrom? t).getD []) := by
    intro steps hs
    have ⟨t, ht, hf⟩ := List.mem_filterMap.mp (List.mem_of_getLast? hs)
    have hm := (List.singleton_sublist.mpr ht).flatMap fun t => stepLines ((backgroundFrom? t).getD [])
    rwa [List.flatMap_singleton, hf, Option.getD_some] at hm
  refine ⟨?lines, ?cases, fun steps hs => (hb steps hs).trans ?background⟩
  case cases      => exact hc ▸ List.Sublist.flatMap_right _ fun _ _ => List.sublist_append_right _ _
  case background => exact List.Sublist.flatMap_right _ fun _ _ => List.sublist_append_left _ _
  case lines =>
    refine List.Subperm.trans (List.Sublist.subperm ?_) (List.flatMap_append_perm ..).subperm
    rw [Suite.lines, hc]
    refine List.Sublist.append_right ?_ _
    cases h : ((segment rest).filterMap backgroundFrom?).getLast?
    case none       => exact List.nil_sublist _
    case some steps => exact hb steps h

theorem takes_of_suiteFrom? {t : List Line} {u : Suite} (h : suiteFrom? t = some u) :
    ∃ ns, suiteLines t = u.line :: ns ∧ u.Takes ns := by
  unfold suiteFrom? at h
  split at h <;> cases h
  case h_1 number name rest => exact ⟨_, rfl, takes_segment number name rest⟩

section Sorted

variable {ls : List Line} (hs : (numbers ls).Pairwise (· < ·))
include hs

theorem pairwise_suiteLines : (ls.tails.flatMap suiteLines).Pairwise (· < ·) :=
  hs.sublist ((List.sublist_append_right _ _).trans ((List.sublist_append_right _ _).trans (lines_sublist ls)))

-- The lines of a suite stand behind its own, and each of its parts keeps their order.
theorem takes_of_mem_segmented {u : Suite} (h : u ∈ segmented ls) :
    ∃ ns, (u.line :: ns).Pairwise (· < ·) ∧ u.Takes ns := by
  have ⟨t, ht, hu⟩ := List.mem_filterMap.mp h
  have ⟨ns, he, hn⟩ := takes_of_suiteFrom? hu
  exact ⟨ns, he ▸ (List.pairwise_flatMap.mp (pairwise_suiteLines hs)).left t ht, hn⟩

-- Whatever stands in a suite stands before the next suites.
theorem pairwise_segmented :
    (segmented ls).Pairwise fun u u' => ∀ n ∈ u.line :: u.lines, n < u'.line := by
  refine List.pairwise_filterMap.mpr ((List.pairwise_flatMap.mp (pairwise_suiteLines hs)).right.imp ?_)
  intro t t' h u hu u' hu' n hn
  have ⟨ns, he, ht⟩ := takes_of_suiteFrom? hu
  have ⟨_, he', _⟩ := takes_of_suiteFrom? hu'
  have hn : n ∈ suiteLines t := he ▸ List.cons_subset_cons _ ht.lines.subset hn
  exact h n hn u'.line (he' ▸ List.mem_cons_self)

end Sorted

theorem pairwise_numbers_classify (ls : List Text) : (numbers (classify ls)).Pairwise (· < ·) := by
  have h : numbers (classify ls) = (List.range' 1 ls.length).map (↑) := by
    rw [← number_classify, List.map_map]
    rfl
  rw [h, List.pairwise_map]
  exact (List.pairwise_lt_range' ..).imp Int.ofNat_lt.mpr

end GherkinView.Script
