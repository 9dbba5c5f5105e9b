import GherkinView.Gherkin.Layout
import GherkinView.Proofs.Text.Lines

namespace GherkinView.Gherkin

open Text

inductive Row
  | feature (name : Text)
  | background
  | scenario (name : Text)
  | step (keyword : Keyword) (text : Text)
  | separator
  deriving DecidableEq

def Row.text : Row → Text
  | feature name => "Feature: ".toList ++ name
  | background => "  Background:".toList
  | scenario name => "  Scenario: ".toList ++ name
  | step keyword text => "    ".toList ++ keyword.name ++ ' ' :: text
  | separator => []

theorem Row.text_separator : separator.text = [] :=
  rfl

theorem Row.text_step (k : Keyword) (t : Text) :
    (step k t).text = "    ".toList ++ k.name ++ [' '] ++ t :=
  (List.append_assoc _ [' '] t).symm

theorem Row.newline_not_mem_step {k : Keyword} {t : Text} (h : '\n' ∉ t) : '\n' ∉ (step k t).text := by
  have hk : '\n' ∉ "    ".toList ++ k.name := by cases k <;> decide
  exact List.not_mem_append hk (List.not_mem_cons_of_ne_of_not_mem (by decide) h)

def Step.row (s : Step) : Row :=
  .step s.keyword s.text

def backgroundRows (steps : List Step) : List Row :=
  .background :: steps.map Step.row ++ [.separator]

def Scenario.rows (s : Scenario) : List Row :=
  .scenario s.name :: s.steps.map Step.row ++ [.separator]

def Feature.rows (f : Feature) : List Row :=
  .feature f.name :: .separator ::
    (f.background.map backgroundRows).getD [] ++ f.scenarios.flatMap Scenario.rows

def Document.rows (d : Document) : List Row :=
  d.features.flatMap Feature.rows

theorem backgroundLayout_eq (steps : List Step) :
    backgroundLayout steps = (backgroundRows steps).map Row.text := by
  simp only [backgroundLayout, backgroundRows, List.map_append, List.map_cons, List.map_map]
  rfl

theorem Scenario.layout_eq (s : Scenario) : s.layout = s.rows.map Row.text := by
  simp only [layout, rows, List.map_append, List.map_cons, List.map_map]
  rfl

theorem Feature.layout_eq (f : Feature) : f.layout = f.rows.map Row.text := by
  have hs : Scenario.layout = fun s => s.rows.map Row.text := funext Scenario.layout_eq
  have hb : backgroundLayout = fun s => (backgroundRows s).map Row.text :=
    funext backgroundLayout_eq
  simp only [layout, rows, hs, hb, List.map_append, List.map_cons, List.map_flatMap]
  cases f.background <;> rfl

theorem Document.layout_eq (d : Document) : d.layout = d.rows.map Row.text := by
  have hf : Feature.layout = fun f => f.rows.map Row.text := funext Feature.layout_eq
  simp only [layout, rows, hf, List.map_flatMap]

-- Every row but a separator shows something, whatever its name or text is.
theorem Row.isShown {r : Row} (h : r ≠ .separator) : IsShown r.text := by
  cases r
  case separator  => contradiction
  case feature    => exact IsShown.append_right _ ⟨'F', by decide, by decide⟩
  case background => exact ⟨'B', by decide, by decide⟩
  case scenario   => exact IsShown.append_right _ ⟨'S', by decide, by decide⟩
  case step k t =>
    refine IsShown.append_right _ (IsShown.append_left _ ?_)
    cases k
    case precondition => exact ⟨'G', by decide, by decide⟩
    case action       => exact ⟨'W', by decide, by decide⟩
    case outcome      => exact ⟨'T', by decide, by decide⟩
    case continuation => exact ⟨'A', by decide, by decide⟩

-- Rows that end in a single separator.
def Closed (rs : List Row) : Prop :=
  ∃ before last, rs = before ++ [last] ++ [.separator] ∧ last ≠ .separator

namespace Closed

theorem append (rs : List Row) {rs' : List Row} (h : Closed rs') : Closed (rs ++ rs') :=
  have ⟨before, last, he, hl⟩ := h
  ⟨rs ++ before, last, by simp [he], hl⟩

theorem block (head : Row) (hh : head ≠ .separator) (steps : List Step) :
    Closed (head :: steps.map Step.row ++ [.separator]) := by
  induction steps using List.reverseRecOn
  case nil => exact ⟨[], head, rfl, hh⟩
  case append_singleton steps s _ =>
    exact ⟨head :: steps.map Step.row, s.row, by simp, nofun⟩

theorem flatMap {α : Type} {f : α → List Row} (h : ∀ a, Closed (f a)) {as : List α} (hn : as ≠ []) :
    Closed (as.flatMap f) := by
  induction as using List.reverseRecOn
  case nil => contradiction
  case append_singleton as a _ => simpa using (h a).append _

theorem feature (f : Feature) : Closed f.rows := by
  have hh : Closed [.feature f.name, .separator] := block (.feature f.name) nofun []
  have hb : Closed (.feature f.name :: .separator :: (f.background.map backgroundRows).getD []) := by
    cases f.background
    case none       => exact hh
    case some steps =>
      have h := block .background nofun steps
      exact h.append [.feature f.name, .separator]
  by_cases hs : f.scenarios = []
  case pos => simpa [Feature.rows, hs] using hb
  case neg =>
    have h := flatMap (fun s => block (.scenario s.name) nofun s.steps) hs
    exact h.append _

end Closed

theorem Document.rows_closed {d : Document} (h : d.features ≠ []) : Closed d.rows :=
  Closed.flatMap Closed.feature h

theorem Document.mem_dropLast_rows {d : Document} {r : Row} (h : r ∈ d.rows) (hr : r ≠ .separator) :
    r ∈ d.rows.dropLast := by
  have hn : d.features ≠ [] := fun he => by simp [rows, he] at h
  have ⟨before, last, he, _⟩ := rows_closed hn
  rw [he] at h
  rw [he, List.dropLast_concat]
  exact (List.mem_append.mp h).resolve_right (by simpa using hr)

-- The lines of a rendered document.
def Document.shown (d : Document) : List Text :=
  settle (d.rows.dropLast.map Row.text)

theorem Document.unlines_layout {d : Document} (h : d.features ≠ []) :
    ∃ t, unlines d.layout = 'F' :: t := by
  have ⟨f, fs, he⟩ := List.exists_cons_of_ne_nil h
  have hl : d.layout =
      ("Feature: ".toList ++ f.name) :: (f.layout.tail ++ fs.flatMap Feature.layout) := by
    simp only [layout, he, List.flatMap_cons, Feature.layout]
    rfl
  have hn : f.layout.tail ++ fs.flatMap Feature.layout ≠ [] := by
    simp only [Feature.layout]
    exact nofun
  rw [hl, unlines_cons hn]
  exact ⟨_, rfl⟩

theorem Document.render_eq (d : Document) : d.render = unlines d.shown := by
  by_cases h : d.features = []
  case pos => simp only [render, layout, shown, rows, h]; rfl
  case neg =>
    have ⟨t, ht⟩ := unlines_layout h
    have ⟨before, last, he, hl⟩ := rows_closed h
    have hn : (before ++ [last]).map Row.text ≠ [] := by simp
    have hs : ∀ l ∈ ((before ++ [last]).map Row.text).getLast?, IsShown l := by
      simpa using Row.isShown hl
    calc
      d.render = trimEnd (unlines d.layout) := by rw [render, ht, trim_cons (by decide)]
      _ = trimEnd (unlines ((before ++ [last]).map Row.text) ++ ['\n']) := by
        rw [layout_eq, he, List.map_append, List.map_singleton, Row.text_separator,
          unlines_concat hn]
      _ = trimEnd (unlines ((before ++ [last]).map Row.text)) :=
        trimEnd_append_blank (List.forall_mem_singleton.mpr (by decide))
      _ = unlines d.shown := by
        rw [trimEnd_unlines hs, shown, he, List.dropLast_concat]

end GherkinView.Gherkin
