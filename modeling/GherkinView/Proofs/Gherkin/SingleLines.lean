import GherkinView.Conversion
import GherkinView.Proofs.Gherkin.Rows
import GherkinView.Proofs.Script.Provenance
import GherkinView.Proofs.Sentence.Seams

namespace GherkinView

namespace Gherkin

open Script

variable {u : Suite} {r : Row}

-- The row that a step of a script becomes, with some keyword.
def IsTold (s : Script.Step) (r : Row) : Prop :=
  ∃ keyword, r = .step keyword (Sentence.tell s.label s.code)

theorem isTold_of_mem_tellSteps {keyword : Text → Int → Keyword} {steps : List Script.Step}
    (h : r ∈ (tellSteps keyword steps).map Step.row) : ∃ s ∈ steps, IsTold s r := by
  simp only [tellSteps, List.mem_map, List.mem_mapIdx] at h
  obtain ⟨_, ⟨i, hi, rfl⟩, rfl⟩ := h
  exact ⟨steps[i], List.getElem_mem hi, _, rfl⟩

theorem exists_mem_tellSteps (keyword : Text → Int → Keyword) {steps : List Script.Step}
    {s : Script.Step} (h : s ∈ steps) : ∃ r ∈ (tellSteps keyword steps).map Step.row, IsTold s r := by
  obtain ⟨i, hi, rfl⟩ := List.getElem_of_mem h
  simp only [tellSteps, List.mem_map, List.mem_mapIdx]
  exact ⟨_, ⟨_, ⟨i, hi, rfl⟩, rfl⟩, _, rfl⟩

-- What a row of a suite's feature is.
inductive RowOf (u : Suite) : Row → Prop
  | feature : RowOf u (.feature u.name)
  | background : RowOf u .background
  | scenario {c : Case} : c ∈ u.cases → RowOf u (.scenario c.name)
  | step {s : Script.Step} {r : Row} : s ∈ u.steps → IsTold s r → RowOf u r
  | separator : RowOf u .separator

-- The rows of a block of steps, under a row of its own.
theorem rowOf_block {keyword : Text → Int → Keyword} {steps : List Script.Step} {head : Row}
    (hh : RowOf u head) (hs : steps ⊆ u.steps)
    (h : r ∈ head :: (tellSteps keyword steps).map Step.row ++ [.separator]) : RowOf u r := by
  obtain h | h := List.mem_append.mp h
  case inr => rw [List.mem_singleton.mp h]; exact .separator
  case inl =>
    obtain rfl | h := List.mem_cons.mp h
    case inl => exact hh
    case inr =>
      obtain ⟨s, hm, ht⟩ := isTold_of_mem_tellSteps h
      exact .step (hs hm) ht

theorem rowOf_backgroundRows {steps : List Script.Step} (hb : u.background = some steps)
    (h : r ∈ backgroundRows (backgroundSteps steps)) : RowOf u r :=
  rowOf_block .background (fun s hs => List.mem_append_left _ (by rwa [hb])) h

theorem rowOf_scenarioRows {c : Case} (hc : c ∈ u.cases) (h : r ∈ (Scenario.ofCase c).rows) :
    RowOf u r :=
  rowOf_block (.scenario hc)
    (fun _ hs => List.mem_append_right _ (List.mem_flatMap.mpr ⟨c, hc, hs⟩)) h

theorem rowOf_featureRows (h : r ∈ (Feature.ofSuite u).rows) : RowOf u r := by
  simp only [Feature.rows, Feature.ofSuite, List.cons_append, List.mem_cons, List.mem_append,
    List.flatMap_map, List.mem_flatMap] at h
  obtain rfl | rfl | h | ⟨c, hc, h⟩ := h
  · exact .feature
  · exact .separator
  · cases hb : u.background
    case none       => simp [hb] at h
    case some steps => exact rowOf_backgroundRows hb (by simpa [hb] using h)
  · exact rowOf_scenarioRows hc h

theorem exists_told_row {s : Script.Step} (h : s ∈ u.steps) :
    ∃ r ∈ (Feature.ofSuite u).rows, IsTold s r := by
  obtain h | h := List.mem_append.mp h
  case inl =>
    cases hb : u.background
    case none => simp [hb] at h
    case some steps =>
      obtain ⟨r, hr, ht⟩ := exists_mem_tellSteps (fun _ => Keyword.inBackground)
        (show s ∈ steps by simpa [hb] using h)
      have hm : r ∈ backgroundRows (backgroundSteps steps) :=
        List.mem_append_left _ (List.mem_cons_of_mem _ hr)
      exact ⟨r, by simp [Feature.rows, Feature.ofSuite, hb, hm], ht⟩
  case inr =>
    obtain ⟨c, hc, hs⟩ := List.mem_flatMap.mp h
    obtain ⟨r, hr, ht⟩ := exists_mem_tellSteps Keyword.inScenario hs
    have hm : r ∈ (Scenario.ofCase c).rows := List.mem_append_left _ (List.mem_cons_of_mem _ hr)
    exact ⟨r, List.mem_append_right _ (List.mem_flatMap.mpr ⟨_, List.mem_map_of_mem hc, hm⟩), ht⟩

end Gherkin

open Gherkin

variable {source : Text}

-- The value that the step is told with stays within a line.
def Script.Step.IsSingle (s : Script.Step) : Prop :=
  ∀ v ∈ Sentence.toldValue? s.label s.code, '\n' ∉ v

theorem isSingle_iff {s : Script.Step} (h : s ∈ (Script.read source).steps) :
    s.IsSingle ↔ '\n' ∉ Sentence.tell s.label s.code := by
  have ⟨u, hu, hs⟩ := List.mem_flatMap.mp h
  simp [Script.Step.IsSingle, Sentence.newline_mem_tell_iff (Script.newline_not_mem_step hu hs)]

theorem rowOf_documentOf {r : Row} (h : r ∈ (documentOf source).rows) :
    ∃ u ∈ (Script.read source).suites, RowOf u r := by
  simp only [documentOf, Document.ofScript, Document.rows, List.flatMap_map, List.mem_flatMap] at h
  obtain ⟨u, hu, h⟩ := h
  exact ⟨u, hu, rowOf_featureRows h⟩

theorem exists_row_documentOf {s : Script.Step} (h : s ∈ (Script.read source).steps) :
    ∃ keyword, .step keyword (Sentence.tell s.label s.code) ∈ (documentOf source).rows := by
  have ⟨u, hu, hs⟩ := List.mem_flatMap.mp h
  obtain ⟨_, hr, keyword, rfl⟩ := exists_told_row hs
  simp only [documentOf, Document.ofScript, Document.rows, List.flatMap_map, List.mem_flatMap]
  exact ⟨keyword, u, hu, hr⟩

theorem newline_not_mem_rowOf {u : Script.Suite} {r : Row} (hu : '\n' ∉ u.name)
    (hc : ∀ c ∈ u.cases, '\n' ∉ c.name) (hs : ∀ s ∈ u.steps, '\n' ∉ Sentence.tell s.label s.code)
    (h : RowOf u r) : '\n' ∉ r.text := by
  cases h
  case feature    => exact List.not_mem_append (by decide) hu
  case background => decide
  case scenario c h => exact List.not_mem_append (by decide) (hc c h)
  case separator  => exact List.not_mem_nil
  case step s h ht =>
    obtain ⟨keyword, rfl⟩ := ht
    exact Row.newline_not_mem_step (hs s h)

theorem lines_gherkinOf_of_isSingle (h : ∀ s ∈ (Script.read source).steps, s.IsSingle) :
    Text.lines (gherkinOf source) = (documentOf source).shown := by
  rw [gherkinOf, Document.render_eq]
  refine Text.lines_unlines (Text.settle_ne_nil _) (Text.newline_not_mem_settle fun l hl => ?_)
  obtain ⟨r, hr, rfl⟩ := List.mem_map.mp hl
  have ⟨u, hu, ho⟩ := rowOf_documentOf (List.mem_of_mem_dropLast hr)
  refine newline_not_mem_rowOf (Script.newline_not_mem_suite hu)
    (fun c => Script.newline_not_mem_case hu) (fun s hs => ?_) ho
  have hm : s ∈ (Script.read source).steps := List.mem_flatMap.mpr ⟨u, hu, hs⟩
  exact (isSingle_iff hm).mp (h s hm)

-- A line feed in the text of a step shows, also where the step comes last.
theorem isSingle_of_lines_gherkinOf (h : Text.lines (gherkinOf source) = (documentOf source).shown)
    {s : Script.Step} (hs : s ∈ (Script.read source).steps) : s.IsSingle := by
  rw [isSingle_iff hs]
  intro hm
  have ⟨keyword, hr⟩ := exists_row_documentOf hs
  have hr := List.mem_map_of_mem (Document.mem_dropLast_rows hr nofun) (f := Row.text)
  have hl : ∀ l ∈ (documentOf source).shown, '\n' ∉ l := fun l hl =>
    Text.not_mem_of_mem_lines (h ▸ hl)
  rw [Row.text_step] at hr
  generalize "    ".toList ++ keyword.name ++ [' '] = indent at hr
  obtain hr | hr := Text.mem_settle_of_mem hr
  case inl => exact hl _ hr (List.mem_append_right _ hm)
  case inr =>
    have ⟨_, hu, hs⟩ := List.mem_flatMap.mp hs
    exact hl _ hr (Sentence.newline_mem_trimEnd_tell (Script.newline_not_mem_step hu hs) indent hm)

-- The Gherkin text has the lines of its rows exactly if the value of each step stays within a line,
-- and so do then the texts of all steps.
theorem lines_gherkinOf_iff (source : Text) :
    (Text.lines (gherkinOf source) = (documentOf source).shown ↔
      ∀ s ∈ (Script.read source).steps, s.IsSingle) ∧
    ((∀ keyword text, .step keyword text ∈ (documentOf source).rows → '\n' ∉ text) ↔
      ∀ s ∈ (Script.read source).steps, s.IsSingle) := by
  refine ⟨⟨fun h s hs => isSingle_of_lines_gherkinOf h hs, lines_gherkinOf_of_isSingle⟩, ?_, ?_⟩
  case refine_1 =>
    intro h s hs
    have ⟨keyword, hr⟩ := exists_row_documentOf hs
    exact (isSingle_iff hs).mpr (h keyword _ hr)
  case refine_2 =>
    intro h keyword text hr
    have ⟨u, hu, ho⟩ := rowOf_documentOf hr
    cases ho
    case step s hs ht =>
      have ⟨_, he⟩ := ht
      cases he
      have hm : s ∈ (Script.read source).steps := List.mem_flatMap.mpr ⟨u, hu, hs⟩
      exact (isSingle_iff hm).mp (h s hm)

-- The first value in the step goes over two lines.
def overflowing : Text := Text.unlines [
  "test.describe('A', () => \x7b".toList,
  "  test('b', async () => \x7b".toList,
  "    await test.step('run it', async () => \x7b".toList,
  "      await page.fill(\x60one".toList,
  "two\x60);".toList,
  "    \x7d);".toList,
  "  \x7d);".toList,
  "\x7d);".toList]

-- Not every script has one line for each element.
theorem lines_gherkinOf_overflowing :
    Text.lines (gherkinOf overflowing) ≠ (documentOf overflowing).shown ∧
      ∃ keyword text, .step keyword text ∈ (documentOf overflowing).rows ∧ '\n' ∈ text :=
  ⟨by decide +kernel, .precondition, "run \"one\ntwo\" it".toList, by decide +kernel, by decide⟩

end GherkinView
