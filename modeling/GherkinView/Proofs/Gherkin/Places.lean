import Mathlib.Data.List.Nodup
import GherkinView.Conversion
import GherkinView.Proofs.Gherkin.JsonView
import GherkinView.Proofs.Gherkin.ReadBack
import GherkinView.Proofs.Script.Order

open scoped List

namespace GherkinView.Gherkin

open Script

-- There is a line `n`, and without the blanks around it `p` holds of it.
def HoldsAt (ls : List Text) (n : Int) (p : Text → Prop) : Prop :=
  ∃ (i : Nat) (h : i < ls.length), n = i + 1 ∧ p (Text.trim ls[i])

-- The line of the step has its label, and the step is told by that and the block behind it.
def Step.IsPlaced (ls : List Text) (s : Step) : Prop :=
  ∃ (i : Nat) (h : i < ls.length) (label : Text), s.line = i + 1 ∧
    Marker.isStep (Text.trim ls[i]) = true ∧ Text.firstLiteral? (Text.trim ls[i]) = some label ∧ label ≠ [] ∧
    s.text = Sentence.tell label (captureBlock (ls.drop i))

structure Document.IsPlaced (ls : List Text) (d : Document) : Prop where
  feature : ∀ f ∈ d.features, HoldsAt ls f.line (Marker.isSuite · = true)
  scenario : ∀ f ∈ d.features, ∀ s ∈ f.scenarios, HoldsAt ls s.line (Marker.isCase · = true)
  step : ∀ f ∈ d.features, ∀ s ∈ f.steps, s.IsPlaced ls

-- The line of the scenario, and then those of its steps.
def Scenario.lines (s : Scenario) : List Int :=
  s.line :: s.steps.map (·.line)

-- The lines of what stands in the feature.
def Feature.lines (f : Feature) : List Int :=
  (f.background.getD []).map (·.line) ++ f.scenarios.flatMap Scenario.lines

-- Scenario by scenario, lines and steps increase; a background may stand anywhere in its feature.
structure Document.IsOrdered (d : Document) : Prop where
  features : (d.features.map (·.line)).Pairwise (· < ·)
  behind : ∀ f ∈ d.features, ∀ n ∈ f.lines, f.line < n
  before : d.features.Pairwise fun f f' => ∀ n ∈ f.lines, n < f'.line
  scenarios : ∀ f ∈ d.features, (f.scenarios.flatMap Scenario.lines).Pairwise (· < ·)
  background : ∀ f ∈ d.features, ∀ steps ∈ f.background, (steps.map (·.line)).Pairwise (· < ·)
  steps : ((d.features.flatMap Feature.steps).map (·.line)).Nodup

section Telling

variable {keyword : Text → Int → Keyword} {steps : List Script.Step} {u : Suite}

theorem lines_tellSteps (keyword : Text → Int → Keyword) (steps : List Script.Step) :
    (tellSteps keyword steps).map (·.line) = stepLines steps := by
  apply List.ext_getElem <;> simp [tellSteps, stepLines, Step.ofScript]

theorem lines_ofCase (c : Case) : (Scenario.ofCase c).lines = c.lines :=
  congrArg (c.line :: ·) (lines_tellSteps ..)

theorem lines_cases (u : Suite) :
    (Feature.ofSuite u).scenarios.flatMap Scenario.lines = u.cases.flatMap Case.lines := by
  simp only [Feature.ofSuite, List.flatMap_map, lines_ofCase]

theorem lines_ofSuite (u : Suite) : (Feature.ofSuite u).lines = u.lines := by
  rw [Feature.lines, lines_cases, Suite.lines]
  congr 1
  cases h : u.background <;> simp [Feature.ofSuite, h, backgroundSteps, lines_tellSteps, stepLines]

theorem steps_sublist_lines (f : Feature) : f.steps.map (·.line) <+ f.lines := by
  rw [Feature.steps, Feature.lines, List.map_append, List.map_flatMap]
  exact (List.Sublist.flatMap_right _ fun s _ => List.sublist_cons_self _ _).append_left _

theorem exists_of_mem_tellSteps {s : Step} (h : s ∈ tellSteps keyword steps) :
    ∃ s' ∈ steps, s.line = s'.line ∧ s.text = Sentence.tell s'.label s'.code := by
  simp only [tellSteps, List.mem_mapIdx] at h
  obtain ⟨i, hi, rfl⟩ := h
  exact ⟨steps[i], List.getElem_mem hi, rfl, rfl⟩

theorem exists_of_mem_steps {s : Step} (h : s ∈ (Feature.ofSuite u).steps) :
    ∃ s' ∈ u.steps, s.line = s'.line ∧ s.text = Sentence.tell s'.label s'.code := by
  obtain h | h := List.mem_append.mp h
  case inl =>
    cases hb : u.background
    case none => simp [Feature.ofSuite, hb] at h
    case some steps =>
      have ⟨s', hs, ht⟩ := exists_of_mem_tellSteps (show s ∈ backgroundSteps steps by
        simpa [Feature.ofSuite, hb] using h)
      exact ⟨s', List.mem_append_left _ (by rwa [hb]), ht⟩
  case inr =>
    simp only [Feature.ofSuite, List.flatMap_map, List.mem_flatMap] at h
    obtain ⟨c, hc, h⟩ := h
    have ⟨s', hs, ht⟩ := exists_of_mem_tellSteps h
    exact ⟨s', List.mem_append_right _ (List.mem_flatMap.mpr ⟨c, hc, hs⟩), ht⟩

end Telling

section Placed

variable {ls : List Text}

theorem exists_index_of_mem_classify {l : Line} (h : l ∈ classify ls) :
    ∃ (i : Nat) (h : i < ls.length), l = lineAt ls i ls[i] := by
  obtain ⟨i, hi, rfl⟩ := List.mem_mapIdx.mp h
  exact ⟨i, hi, rfl⟩

theorem isPlaced_suites :
    Document.IsPlaced ls ⟨(segmented (classify ls)).map Feature.ofSuite⟩ := by
  refine ⟨?feature, ?scenario, ?step⟩
  case feature =>
    refine List.forall_mem_map.mpr fun u hu => ?_
    have ⟨l, hl, hk, hn⟩ := exists_line_of_suite hu
    obtain ⟨i, hi, rfl⟩ := exists_index_of_mem_classify hl
    exact ⟨i, hi, hn, LineKind.isSuite_of_suite hk⟩
  case scenario =>
    refine List.forall_mem_map.mpr fun u hu => List.forall_mem_map.mpr fun c hc => ?_
    have ⟨l, hl, hk, hn⟩ := exists_line_of_case hu hc
    obtain ⟨i, hi, rfl⟩ := exists_index_of_mem_classify hl
    exact ⟨i, hi, hn, LineKind.isCase_of_case hk⟩
  case step =>
    refine List.forall_mem_map.mpr fun u hu s hs => ?_
    have ⟨s', hs', hline, htext⟩ := exists_of_mem_steps hs
    have ⟨l, hl, hk⟩ := exists_line_of_step hu hs'
    obtain ⟨i, hi, rfl⟩ := exists_index_of_mem_classify hl
    unfold Line.step? at hk
    split at hk <;> cases hk
    case h_1 label code hk =>
      have ⟨hm, hf, hc⟩ := LineKind.isStep_of_step hk
      have ⟨hf, he⟩ := Option.filter_eq_some_iff.mp hf
      exact ⟨i, hi, label, hline, hm, hf, by simpa using he, hc ▸ htext⟩

theorem isOrdered_suites {ms : List Line} (hs : (numbers ms).Pairwise (· < ·)) :
    Document.IsOrdered ⟨(segmented ms).map Feature.ofSuite⟩ := by
  have hp := pairwise_segmented hs
  refine ⟨?features, ?behind, ?before, ?scenarios, ?background, ?steps⟩
  case features =>
    rw [List.map_map, List.pairwise_map]
    exact hp.imp fun h => h _ List.mem_cons_self
  case behind =>
    refine List.forall_mem_map.mpr fun u hu n hn => ?_
    have ⟨ns, ho, ht⟩ := takes_of_mem_segmented hs hu
    exact List.rel_of_pairwise_cons ho (ht.lines.subset (lines_ofSuite u ▸ hn))
  case before =>
    rw [List.pairwise_map]
    exact hp.imp fun h n hn => h n (List.mem_cons_of_mem _ (lines_ofSuite _ ▸ hn))
  case scenarios =>
    refine List.forall_mem_map.mpr fun u hu => ?_
    have ⟨ns, ho, ht⟩ := takes_of_mem_segmented hs hu
    exact lines_cases u ▸ ho.of_cons.sublist ht.cases
  case background =>
    refine List.forall_mem_map.mpr fun u hu steps hb => ?_
    have ⟨ns, ho, ht⟩ := takes_of_mem_segmented hs hu
    obtain ⟨steps, hu, rfl⟩ := Option.map_eq_some_iff.mp hb
    rw [backgroundSteps, lines_tellSteps]
    exact ho.of_cons.sublist (ht.background steps hu)
  case steps =>
    rw [List.map_flatMap, List.flatMap_map]
    refine List.nodup_flatMap.mpr ⟨fun u hu => ?own, hp.imp_of_mem fun hu hu' h n hn hn' => ?others⟩
    case own =>
      have ⟨ns, ho, ht⟩ := takes_of_mem_segmented hs hu
      have ⟨ms, hm, hns⟩ := ht.lines
      have hd : u.lines.Nodup := hm.nodup_iff.mp ((ho.of_cons.imp Int.ne_of_lt).sublist hns)
      exact (lines_ofSuite u ▸ hd).sublist (steps_sublist_lines _)
    case others =>
      have hn := lines_ofSuite _ ▸ (steps_sublist_lines _).subset hn
      have hn' := (steps_sublist_lines _).subset hn'
      have ⟨ns, ho, ht⟩ := takes_of_mem_segmented hs hu'
      have := List.rel_of_pairwise_cons ho (ht.lines.subset (lines_ofSuite _ ▸ hn'))
      have := h n (List.mem_cons_of_mem _ hn)
      omega

end Placed

-- What the JSON view says of lines is true of the script, and tells the elements apart.
theorem Document.json_places (source : Text) :
    ∃ d, Document.ofJson? (documentOf source).toJson = some d ∧ d.IsPlaced (Text.lines source) ∧
      d.IsOrdered := by
  have he : documentOf source = ⟨(segmented (classify (Text.lines source))).map Feature.ofSuite⟩ := by
    rw [documentOf, Document.ofScript, suites_read_eq_segmented]
  exact ⟨_, Document.ofJson?_toJson _, he ▸ isPlaced_suites,
    he ▸ isOrdered_suites (pairwise_numbers_classify _)⟩

end GherkinView.Gherkin
