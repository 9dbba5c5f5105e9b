import Mathlib.Computability.RegularExpressions
import Mathlib.Data.List.Forall2
import GherkinView.Conversion
import GherkinView.Proofs.Script.Provenance

namespace GherkinView

theorem Text.contains_iff {needle t : Text} : contains needle t = true ↔ needle <:+: t := by
  induction t
  case nil => rw [contains, List.isEmpty_iff, List.infix_nil]
  case cons c t hi => rw [contains, Bool.or_eq_true, hi, startsWith, List.isPrefixOf_iff_prefix, List.infix_cons_iff]

namespace Gherkin

open RegularExpression

def keywords (steps : List Step) : List Keyword :=
  steps.map (·.keyword)

namespace Keyword

def scenarioForm : RegularExpression Keyword :=
  char precondition * (1 + (char action + char outcome) * (char continuation + char outcome).star)

def backgroundForm : RegularExpression Keyword :=
  char precondition * (char continuation).star

end Keyword

-- One of the words is in the label, in whatever case the label has it.
def Mentions (words : List Text) (label : Text) : Prop :=
  ∃ word ∈ words, word <:+: Text.lower label

-- The keyword of a step that is not the first one of its scenario.
structure Step.GoesBy (s : Script.Step) (told : Step) : Prop where
  action : Mentions actionWords s.label → told.keyword ≠ .outcome
  outcome : Mentions assertionWords s.label → ¬Mentions actionWords s.label → told.keyword = .outcome

structure Scenario.GoesBy (c : Script.Case) (told : Scenario) : Prop where
  form : told.steps ≠ [] → keywords told.steps ∈ Keyword.scenarioForm.matches'
  later : List.Forall₂ Step.GoesBy c.steps.tail told.steps.tail

structure Feature.GoesBy (u : Script.Suite) (told : Feature) : Prop where
  scenarios : List.Forall₂ Scenario.GoesBy u.cases told.scenarios
  background : ∀ steps ∈ told.background, steps ≠ [] ∧ keywords steps ∈ Keyword.backgroundForm.matches'

theorem mentions_iff {words : List Text} {label : Text} : mentions words label = true ↔ Mentions words label := by
  simp only [mentions, List.any_eq_true, Text.contains_iff, Mentions]

section Forms

variable {α : Type} {a : α} {P Q : RegularExpression α} {v w : List α}

theorem mem_matches'_add (h : w ∈ P.matches' ∨ w ∈ Q.matches') : w ∈ (P + Q).matches' :=
  matches'_add P Q ▸ (Language.mem_add _ _ _).mpr h

theorem append_mem_matches' (hv : v ∈ P.matches') (hw : w ∈ Q.matches') : v ++ w ∈ (P * Q).matches' :=
  matches'_mul P Q ▸ Language.append_mem_mul hv hw

theorem singleton_mem_matches' (a : α) : [a] ∈ (char a).matches' :=
  rfl

theorem cons_mem_matches' (hw : w ∈ Q.matches') : a :: w ∈ (char a * Q).matches' :=
  append_mem_matches' (singleton_mem_matches' a) hw

-- Words of single letters that each are in the language.
theorem mem_matches'_star (h : ∀ a ∈ w, [a] ∈ P.matches') : w ∈ P.star.matches' := by
  rw [matches'_star]
  refine Language.mem_kstar.mpr ⟨w.map ([·]), ?_, List.forall_mem_map.mpr h⟩
  rw [← List.flatMap_def, List.flatMap_singleton']

end Forms

namespace Keyword

variable {label : Text} {i : Int} {k : Keyword} {ks : List Keyword}

theorem inScenario_one (label : Text) :
    inScenario label 1 = action ∨ inScenario label 1 = outcome := by
  rw [inScenario, if_neg Int.one_ne_zero, if_pos rfl]
  split
  case isTrue  => exact .inr rfl
  case isFalse => exact .inl rfl

theorem inScenario_later (label : Text) (h : 1 < i) :
    inScenario label i = continuation ∨ inScenario label i = outcome := by
  have h₀ : i ≠ 0 := by omega
  have h₁ : i ≠ 1 := by omega
  rw [inScenario, if_neg h₀, if_neg h₁]
  split
  case isTrue  => exact .inr rfl
  case isFalse => exact .inl rfl

theorem inBackground_later (h : i ≠ 0) : inBackground i = continuation :=
  if_neg h

theorem inScenario_ne_outcome (h : mentions actionWords label = true) :
    inScenario label i ≠ outcome := by
  simp only [inScenario, h, Bool.not_true, Bool.and_false, Bool.false_eq_true, if_false]
  split_ifs <;> nofun

theorem inScenario_eq_outcome (hi : i ≠ 0) (ho : mentions assertionWords label = true)
    (ha : mentions actionWords label = false) : inScenario label i = outcome := by
  simp only [inScenario, hi, ho, ha, Bool.not_false, Bool.and_self, if_true, if_false]

-- The letter is one of two.
theorem singleton_mem_either {k' k'' : Keyword} (h : k = k' ∨ k = k'') :
    [k] ∈ (char k' + char k'').matches' :=
  mem_matches'_add (h.imp (congrArg ([·])) (congrArg ([·])))

theorem mem_scenarioForm (hk : k = action ∨ k = outcome)
    (hs : ∀ k ∈ ks, k = continuation ∨ k = outcome) : precondition :: k :: ks ∈ scenarioForm.matches' :=
  have hs := mem_matches'_star fun k hm => singleton_mem_either (hs k hm)
  cons_mem_matches' (mem_matches'_add (.inr (append_mem_matches' (singleton_mem_either hk) hs)))

theorem singleton_mem_scenarioForm : [precondition] ∈ scenarioForm.matches' :=
  cons_mem_matches' (mem_matches'_add (.inl (@matches'_epsilon Keyword ▸ Language.nil_mem_one)))

theorem mem_backgroundForm (hs : ∀ k ∈ ks, k = continuation) :
    precondition :: ks ∈ backgroundForm.matches' :=
  cons_mem_matches' (mem_matches'_star fun k hm => hs k hm ▸ singleton_mem_matches' k)

end Keyword

section Telling

variable {steps : List Script.Step}

theorem keywords_scenarioSteps (h : scenarioSteps steps ≠ []) :
    keywords (scenarioSteps steps) ∈ Keyword.scenarioForm.matches' := by
  rw [scenarioSteps, tellSteps, keywords] at *
  obtain _ | ⟨_, _ | ⟨second, rest⟩⟩ := steps
  case nil      => contradiction
  case cons.nil => exact Keyword.singleton_mem_scenarioForm
  case cons.cons =>
    simp only [List.mapIdx_cons, List.map_cons]
    refine Keyword.mem_scenarioForm (Keyword.inScenario_one second.label) ?_
    rw [List.forall_mem_map]
    intro step hm
    obtain ⟨i, hi, rfl⟩ := List.mem_mapIdx.mp hm
    have h : (1 : Int) < ↑(i + 1 + 1) := by omega
    exact Keyword.inScenario_later rest[i].label h

theorem keywords_backgroundSteps (h : steps ≠ []) :
    keywords (backgroundSteps steps) ∈ Keyword.backgroundForm.matches' := by
  obtain ⟨first, rest, rfl⟩ := List.exists_cons_of_ne_nil h
  rw [backgroundSteps, tellSteps, keywords, List.mapIdx_cons, List.map_cons]
  refine Keyword.mem_backgroundForm ?_
  rw [List.forall_mem_map]
  intro step hm
  obtain ⟨i, _, rfl⟩ := List.mem_mapIdx.mp hm
  have h : (↑(i + 1) : Int) ≠ 0 := by omega
  exact Keyword.inBackground_later h

theorem goesBy_ofScript (s : Script.Step) {i : Int} (hi : i ≠ 0) :
    Step.GoesBy s (.ofScript Keyword.inScenario s i) where
  action h := Keyword.inScenario_ne_outcome (mentions_iff.mpr h)
  outcome h hn := by
    rw [← mentions_iff, Bool.not_eq_true] at hn
    exact Keyword.inScenario_eq_outcome hi (mentions_iff.mpr h) hn

theorem goesBy_ofCase (c : Script.Case) : Scenario.GoesBy c (.ofCase c) where
  form := keywords_scenarioSteps
  later := by
    simp only [Scenario.ofCase, scenarioSteps, tellSteps]
    cases c.steps
    case nil => exact .nil
    case cons first rest =>
      rw [List.mapIdx_cons]
      refine List.forall₂_iff_get.mpr ⟨by simp, fun i hi _ => ?_⟩
      have h : (↑(i + 1) : Int) ≠ 0 := by omega
      simpa using goesBy_ofScript (rest.get ⟨i, hi⟩) h

theorem goesBy_ofSuite {u : Script.Suite} (h : ∀ steps ∈ u.background, steps ≠ []) :
    Feature.GoesBy u (.ofSuite u) where
  scenarios := List.forall₂_map_right_iff.mpr (List.forall₂_same.mpr fun c _ => goesBy_ofCase c)
  background told ht := by
    obtain ⟨steps, hs, rfl⟩ := Option.map_eq_some_iff.mp ht
    refine ⟨fun he => h steps hs ?_, keywords_backgroundSteps (h steps hs)⟩
    exact List.mapIdx_eq_nil_iff.mp he

end Telling

-- Every feature goes by its suite: its scenarios by their form and by the labels of their later steps, and
-- its background, which is not empty.
theorem keywords_documentOf (source : Text) :
    List.Forall₂ Feature.GoesBy (Script.read source).suites (documentOf source).features :=
  List.forall₂_map_right_iff.mpr (List.forall₂_same.mpr fun _ hu =>
    goesBy_ofSuite fun _ => Script.ne_nil_of_background (Script.mem_suites_read.mp hu))

end Gherkin
end GherkinView
