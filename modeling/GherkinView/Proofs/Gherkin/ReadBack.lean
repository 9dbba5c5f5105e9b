import Mathlib.Data.List.Infix
import GherkinView.Proofs.Gherkin.Rows

namespace GherkinView.Gherkin

open Text

def stepOfText? (t : Text) : Option Row :=
  Keyword.all.findSome? fun k => (after? ("    ".toList ++ k.name ++ [' ']) t).map (Row.step k)

def Row.ofText? (t : Text) : Option Row :=
  if t = [] then some separator
  else if t = background.text then some background
  else ((after? "Feature: ".toList t).map feature).or
    (((after? "  Scenario: ".toList t).map scenario).or (stepOfText? t))

-- What has been read from the end of a document up to some row.
structure Gathered where
  steps : List Step := []
  background : Option (List Step) := none
  scenarios : List Scenario := []
  features : List Feature := []

def Gathered.add : Row → Gathered → Gathered
  | .step keyword text, g => { g with steps := { keyword, text } :: g.steps }
  | .background, g => { g with steps := [], background := some g.steps }
  | .scenario name, g => { g with steps := [], scenarios := { name, steps := g.steps } :: g.scenarios }
  | .feature name, g =>
    { features := { name, scenarios := g.scenarios, background := g.background } :: g.features }
  | .separator, g => g

def Document.ofRows (rs : List Row) : Document :=
  ⟨(rs.foldr Gathered.add {}).features⟩

def Document.ofText? (t : Text) : Option Document :=
  ((lines t).mapM Row.ofText?).map Document.ofRows

section Rows

-- A row shows what it is, whatever its name or text is.
theorem Row.ofText?_text (r : Row) : ofText? r.text = some r := by
  cases r
  case step k t => cases k <;> rfl
  all_goals rfl

theorem mapM_ofText? (rs : List Row) : (rs.map Row.text).mapM Row.ofText? = some rs := by
  induction rs
  case nil => rfl
  case cons r rs hi => simp [Row.ofText?_text, hi]

end Rows

namespace Gathered

variable (g : Gathered)

theorem foldr_steps (steps : List Step) :
    (steps.map Step.row).foldr add g = { g with steps := steps.map Step.unplaced ++ g.steps } := by
  induction steps
  case nil => rfl
  case cons s steps hi => rw [List.map_cons, List.foldr_cons, hi]; rfl

variable {g} (hg : g.steps = [])

include hg

-- The steps of a block come to stand under its header.
theorem foldr_block (head : Row) (steps : List Step) :
    (head :: steps.map Step.row ++ [Row.separator]).foldr add g =
      add head { g with steps := steps.map Step.unplaced } := by
  rw [List.cons_append, List.foldr_cons, List.foldr_append]
  have hs : [Row.separator].foldr add g = g := rfl
  rw [hs, foldr_steps, hg, List.append_nil]

theorem foldr_scenarios (ss : List Scenario) :
    (ss.flatMap Scenario.rows).foldr add g =
      { g with scenarios := ss.map Scenario.unplaced ++ g.scenarios } := by
  induction ss
  case nil => rfl
  case cons s ss hi =>
    rw [List.flatMap_cons, List.foldr_append, hi, Scenario.rows, foldr_block (by exact hg)]
    cases g
    cases hg
    rfl

theorem foldr_background (background : Option (List Step)) :
    ((background.map backgroundRows).getD []).foldr add g =
      { g with background := (background.map (·.map Step.unplaced)).or g.background } := by
  cases background
  case none       => rfl
  case some steps =>
    rw [Option.map_some, Option.getD_some, backgroundRows, foldr_block hg]
    cases g
    cases hg
    rfl

omit hg

theorem foldr_feature (f : Feature) (fs : List Feature) :
    f.rows.foldr add { features := fs } = { features := f.unplaced :: fs } := by
  rw [Feature.rows, List.foldr_append, foldr_scenarios rfl]
  simp only [List.foldr_cons]
  rw [foldr_background rfl]
  simp [add, Feature.unplaced]

theorem foldr_features (fs : List Feature) :
    (fs.flatMap Feature.rows).foldr add {} = { features := fs.map Feature.unplaced } := by
  induction fs
  case nil => rfl
  case cons f fs hi => rw [List.flatMap_cons, List.foldr_append, hi, foldr_feature, List.map_cons]

end Gathered

namespace Document

theorem ofRows_rows (d : Document) : ofRows d.rows = d.unplaced := by
  rw [ofRows, rows, Gathered.foldr_features, unplaced]

-- The last separator tells nothing.
theorem ofRows_dropLast {d : Document} (h : d.features ≠ []) : ofRows d.rows.dropLast = d.unplaced := by
  have ⟨before, last, he, _⟩ := rows_closed h
  have hr := ofRows_rows d
  rw [he, ofRows, List.foldr_append] at hr
  rw [he, List.dropLast_concat]
  exact hr

end Document

def Feature.steps (f : Feature) : List Step :=
  f.background.getD [] ++ f.scenarios.flatMap (·.steps)

-- The last line that is not empty.
def Document.lastLine? (d : Document) : Option Text :=
  (d.layout.filter (!·.isEmpty)).getLast?

-- A document whose text shows where its lines end.
structure Document.IsUnbroken (d : Document) : Prop where
  feature : ∀ f ∈ d.features, '\n' ∉ f.name
  scenario : ∀ f ∈ d.features, ∀ s ∈ f.scenarios, '\n' ∉ s.name
  step : ∀ f ∈ d.features, ∀ s ∈ f.steps, '\n' ∉ s.text

-- A document whose text shows where its lines end, and keeps its end when it is trimmed.
structure Document.IsTidy (d : Document) : Prop where
  feature : ∀ f ∈ d.features, '\n' ∉ f.name
  scenario : ∀ f ∈ d.features, ∀ s ∈ f.scenarios, '\n' ∉ s.name
  step : ∀ f ∈ d.features, ∀ s ∈ f.steps, '\n' ∉ s.text
  ending : ∀ l ∈ d.lastLine?, ∀ c ∈ l.getLast?, isBlank c = false

section Newline

variable {r : Row}

theorem newline_not_mem_block {head : Row} {steps : List Step} (hh : '\n' ∉ head.text)
    (hs : ∀ s ∈ steps, '\n' ∉ s.text) (h : r ∈ head :: steps.map Step.row ++ [.separator]) :
    '\n' ∉ r.text := by
  simp only [List.cons_append, List.mem_cons, List.mem_append, List.mem_map, List.not_mem_nil,
    or_false] at h
  obtain rfl | ⟨s, hm, rfl⟩ | rfl := h
  · exact hh
  · exact Row.newline_not_mem_step (hs s hm)
  · exact List.not_mem_nil

theorem Feature.mem_rows {f : Feature} :
    r ∈ f.rows ↔ r = .feature f.name ∨ r = .separator ∨
      (∃ steps ∈ f.background, r ∈ backgroundRows steps) ∨ ∃ s ∈ f.scenarios, r ∈ s.rows := by
  cases hb : f.background <;> simp [rows, hb]

theorem Document.IsUnbroken.newline_not_mem {d : Document} (h : d.IsUnbroken) (hr : r ∈ d.rows) :
    '\n' ∉ r.text := by
  have ⟨f, hf, hr⟩ := List.mem_flatMap.mp hr
  obtain rfl | rfl | ⟨steps, hb, hr⟩ | ⟨s, hs, hr⟩ := Feature.mem_rows.mp hr
  · exact List.not_mem_append (by decide) (h.feature f hf)
  · exact List.not_mem_nil
  · refine newline_not_mem_block (by decide) (fun s hs => h.step f hf s ?_) hr
    exact List.mem_append_left _ (by simpa [Option.mem_def.mp hb] using hs)
  · refine newline_not_mem_block ?_ (fun t ht => h.step f hf t ?_) hr
    · exact List.not_mem_append (by decide) (h.scenario f hf s hs)
    · exact List.mem_append_right _ (List.mem_flatMap.mpr ⟨s, hs, ht⟩)

theorem Document.IsTidy.isUnbroken {d : Document} (h : d.IsTidy) : d.IsUnbroken :=
  ⟨h.feature, h.scenario, h.step⟩

end Newline

namespace Document

variable {d e : Document}

theorem lastLine?_eq {before : List Row} {last : Row} (hl : last ≠ .separator)
    (h : d.rows = before ++ [last] ++ [.separator]) : d.lastLine? = some last.text := by
  have ⟨c, hc, _⟩ := Row.isShown hl
  have hn : last.text.isEmpty = false := by simpa using List.ne_nil_of_mem hc
  simp [lastLine?, layout_eq, h, Row.text_separator, hn]

-- Trimming takes nothing off.
theorem IsTidy.shown (h : d.IsTidy) (hn : d.features ≠ []) :
    d.shown = d.rows.dropLast.map Row.text := by
  have ⟨before, last, he, hl⟩ := rows_closed hn
  have hd : d.rows.dropLast = before ++ [last] := by rw [he, List.dropLast_concat]
  rw [Document.shown, hd, settle_eq_self]
  case hn => simp
  case h =>
    have ht := h.ending last.text (lastLine?_eq hl he)
    simpa using ht

theorem IsTidy.ofText?_render (h : d.IsTidy) : ofText? d.render = some d.unplaced := by
  by_cases hn : d.features = []
  case pos =>
    have hd : d = {} := by cases d; cases hn; rfl
    rw [hd]
    rfl
  case neg =>
    have ⟨before, last, he, _⟩ := rows_closed hn
    have hr : d.rows.dropLast.map Row.text ≠ [] := by simp [he]
    have hs : ∀ l ∈ d.rows.dropLast.map Row.text, '\n' ∉ l := by
      intro l hl
      obtain ⟨r, hr, rfl⟩ := List.mem_map.mp hl
      exact h.isUnbroken.newline_not_mem (List.mem_of_mem_dropLast hr)
    rw [ofText?, render_eq, h.shown hn, lines_unlines hr hs, mapM_ofText?, Option.map_some,
      ofRows_dropLast hn]

end Document

section Unplaced

theorem backgroundLayout_unplaced (steps : List Step) :
    backgroundLayout (steps.map Step.unplaced) = backgroundLayout steps := by
  rw [backgroundLayout, List.map_map]
  rfl

theorem Scenario.layout_unplaced (s : Scenario) : s.unplaced.layout = s.layout := by
  simp only [layout, unplaced, List.map_map]
  rfl

theorem Feature.layout_unplaced (f : Feature) : f.unplaced.layout = f.layout := by
  simp only [layout, unplaced, List.flatMap_map, Scenario.layout_unplaced]
  cases f.background
  case none       => rfl
  case some steps => simp [backgroundLayout_unplaced]

-- Lines of the script do not show.
theorem Document.render_unplaced (d : Document) : d.unplaced.render = d.render := by
  simp only [render, layout, unplaced, List.flatMap_map, Feature.layout_unplaced]

end Unplaced

-- Rendering can be undone, and so the texts of tidy documents are the same only where they tell the
-- same.
theorem Document.render_undone {d e : Document} (hd : d.IsTidy) (he : e.IsTidy) :
    ofText? d.render = some d.unplaced ∧ (d.render = e.render ↔ d.unplaced = e.unplaced) := by
  refine ⟨hd.ofText?_render, ?mp, ?mpr⟩
  case mp =>
    intro h
    have hr := hd.ofText?_render
    rw [h, he.ofText?_render] at hr
    exact (Option.some.inj hr).symm
  case mpr =>
    intro h
    rw [← render_unplaced d, h, render_unplaced]

-- Names and texts that look like other rows, a background without steps, and a name that is empty.
def lookalikes : Document :=
  ⟨[{ name := "  Background:".toList, line := 1, background := some [] },
    { name := [], line := 2, scenarios := [
      { name := "Feature: ".toList, line := 3,
        steps := [⟨.outcome, [], 4⟩, ⟨.action, "Given".toList, 5⟩] },
      { name := "  ".toList, line := 6, steps := [⟨.precondition, "    Scenario: .".toList, 7⟩] }] }]⟩

theorem render_undone_lookalikes :
    lookalikes.IsTidy ∧ lookalikes.unplaced.IsTidy ∧
      Document.ofText? lookalikes.render = some lookalikes.unplaced ∧
      lookalikes.render = lookalikes.unplaced.render := by
  have hl : lookalikes.lastLine? = some "    Given     Scenario: .".toList := rfl
  have hu : lookalikes.unplaced.lastLine? = some "    Given     Scenario: .".toList := rfl
  have he : ∀ c ∈ "    Given     Scenario: .".toList.getLast?, isBlank c = false := by simp [isBlank]
  have h1 : lookalikes.IsTidy := ⟨by decide, by decide, by decide, by simpa [hl] using he⟩
  have h2 : lookalikes.unplaced.IsTidy := ⟨by decide, by decide, by decide, by simpa [hu] using he⟩
  have h := Document.render_undone h1 h2
  exact ⟨h1, h2, h.left, h.right.mpr rfl⟩

end GherkinView.Gherkin
