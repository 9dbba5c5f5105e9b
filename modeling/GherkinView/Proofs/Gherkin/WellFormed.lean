import GherkinView.Proofs.Gherkin.SingleLines
import GherkinView.Proofs.Script.Extent
import GherkinView.Proofs.Script.Labels

namespace GherkinView

namespace Text

variable {t : Text} {c : Char}

-- No blanks at either end.
structure IsTrimmed (t : Text) : Prop where
  start : ∀ c ∈ t.head?, isBlank c = false
  ending : ∀ c ∈ t.getLast?, isBlank c = false

theorem not_isBlank_of_head?_trimStart (h : c ∈ (trimStart t).head?) : isBlank c = false := by
  cases hb : isBlank c
  case false => rfl
  case true =>
    have := List.head?_dropWhile_not isBlank t
    rw [← trimStart, Option.mem_def.mp h] at this
    simp [hb] at this

theorem isTrimmed_trim (t : Text) : IsTrimmed (trim t) := by
  obtain ⟨u, _, he⟩ := trimEnd_append_trimmed (trimStart t)
  constructor
  case start =>
    intro c hc
    refine not_isBlank_of_head?_trimStart (t := t) ?_
    rw [← he, List.head?_append, ← trim, Option.mem_def.mp hc]
    rfl
  case ending =>
    intro c hc
    rw [trim, trimEnd, List.getLast?_reverse] at hc
    exact not_isBlank_of_head?_trimStart hc

end Text

namespace Script

open Text

-- What suites, cases and steps are called.
structure IsLabel (t : Text) : Prop where
  ne_nil : t ≠ []
  unquoted : Unquoted t
  single : '\n' ∉ t

-- A block of code, from which its opening brace is not cut off; or nothing.
structure IsCode (t : Text) : Prop where
  brace : t = [] ∨ '\x7b' ∈ t
  trimmed : IsTrimmed t

structure Step.IsWellFormed (s : Step) : Prop where
  label : IsLabel s.label
  code : IsCode s.code

structure Suite.IsWellFormed (u : Suite) : Prop where
  name : IsLabel u.name
  case : ∀ c ∈ u.cases, IsLabel c.name
  step : ∀ s ∈ u.steps, s.IsWellFormed
  background : ∀ steps ∈ u.background, steps ≠ []

theorem isCode_captureBlock (ls : List Text) : IsCode (captureBlock ls) := by
  refine ⟨?_, isTrimmed_trim _⟩
  by_cases h : ∃ k, HasBrace ls k
  case pos =>
    obtain ⟨k, hb⟩ := h
    obtain ⟨i, _, hi⟩ := exists_isFirstBrace (Nat.zero_le k) hb
    exact .inr (brace_mem_captureBlock hi)
  case neg =>
    have hn : ∀ k, 0 ≤ k → ¬HasBrace ls k := fun k _ hb => h ⟨k, hb⟩
    exact .inl (captureBlock_of_no_brace hn)

section Line

variable {depth : Int} {line x : Text} {ls : List Text}

theorem ne_nil_of_labelOf? {t : Text} (h : labelOf? t = some x) : x ≠ [] := by
  simpa using (Option.filter_eq_some_iff.mp h).right

theorem getD_labelOf?_ne_nil {other : Text} (h : other ≠ []) (t : Text) : (labelOf? t).getD other ≠ [] := by
  cases hl : labelOf? t
  case none => exact h
  case some => exact ne_nil_of_labelOf? hl

-- An empty literal counts for none.
theorem LineKind.label_ne_nil (h : (of depth line ls).label? = some x) : x ≠ [] := by
  simp only [of] at h
  split_ifs at h <;> try contradiction
  case pos => exact Option.some.inj h ▸ getD_labelOf?_ne_nil (by decide) _
  case pos => exact Option.some.inj h ▸ getD_labelOf?_ne_nil (by decide) _
  case pos =>
    split at h
    case h_1 hl => exact ne_nil_of_labelOf? (hl.trans h)
    case h_2    => contradiction

theorem isLabel_of_mem_classify {source : Text} {l : Line} (hl : l ∈ classify (lines source))
    (h : l.kind.label? = some x) : IsLabel x := by
  refine ⟨?ne_nil, ?unquoted, newline_not_mem_line hl h⟩
  all_goals obtain ⟨i, hi, rfl⟩ := List.mem_mapIdx.mp hl
  case ne_nil   => exact LineKind.label_ne_nil h
  case unquoted => exact LineKind.unquoted_label h

theorem isCode_of_mem_classify {l : Line} {s : Step} (hl : l ∈ classify ls) (h : l.step? = some s) :
    IsCode s.code := by
  obtain ⟨i, hi, rfl⟩ := List.mem_mapIdx.mp hl
  unfold Line.step? at h
  split at h <;> cases h
  case h_1 hk => exact (LineKind.isStep_of_step hk).right.right ▸ isCode_captureBlock _

end Line

-- Every part has its label and its code from a line of its own.
theorem isWellFormed_of_mem_suites {source : Text} {u : Suite} (h : u ∈ (read source).suites) :
    u.IsWellFormed := by
  have h := mem_suites_read.mp h
  refine ⟨?name, fun c hc => ?case, fun s hs => ?step, fun steps hb => ne_nil_of_background h hb⟩
  case name =>
    obtain ⟨l, hl, hk, _⟩ := exists_line_of_suite h
    exact isLabel_of_mem_classify hl (hk ▸ rfl)
  case case =>
    obtain ⟨l, hl, hk, _⟩ := exists_line_of_case h hc
    exact isLabel_of_mem_classify hl (hk ▸ rfl)
  case step =>
    obtain ⟨l, hl, hk⟩ := exists_line_of_step h hs
    exact ⟨isLabel_of_mem_classify hl (label?_of_step? hk), isCode_of_mem_classify hl hk⟩

end Script

namespace Gherkin

-- Every background row stands right in front of a step row.
def HasFilledBackgrounds (rs : List Row) : Prop :=
  ∀ before after, rs = before ++ .background :: after →
    ∃ keyword text rest, after = .step keyword text :: rest

namespace HasFilledBackgrounds

variable {rs rs' : List Row}

theorem of_not_mem (h : .background ∉ rs) : HasFilledBackgrounds rs := by
  rintro before after rfl
  simp at h

theorem append (h : HasFilledBackgrounds rs) (h' : HasFilledBackgrounds rs') :
    HasFilledBackgrounds (rs ++ rs') := by
  intro before after he
  obtain ⟨mid, rfl, hr⟩ | ⟨mid, rfl, hm⟩ := List.append_eq_append_iff.mp he
  case inl => exact h' mid after hr
  case inr =>
    cases mid
    case nil => exact h' [] after hm.symm
    case cons r mid =>
      obtain ⟨rfl, rfl⟩ := List.cons.inj hm
      obtain ⟨keyword, text, rest, rfl⟩ := h before mid rfl
      exact ⟨keyword, text, rest ++ rs', rfl⟩

theorem of_append_separator (h : HasFilledBackgrounds (rs ++ [.separator])) : HasFilledBackgrounds rs := by
  rintro before after rfl
  obtain ⟨keyword, text, rest, he⟩ := h before (after ++ [.separator]) (by simp)
  cases after
  case nil => cases he
  case cons r after =>
    obtain ⟨rfl, _⟩ := List.cons.inj he
    exact ⟨keyword, text, after, rfl⟩

theorem flatMap {α : Type} {f : α → List Row} {as : List α} (h : ∀ a ∈ as, HasFilledBackgrounds (f a)) :
    HasFilledBackgrounds (as.flatMap f) := by
  induction as
  case nil => exact of_not_mem List.not_mem_nil
  case cons a as hi =>
    simp only [List.mem_cons, forall_eq_or_imp] at h
    exact List.flatMap_cons ▸ h.left.append (hi h.right)

theorem background {steps : List Step} (h : steps ≠ []) : HasFilledBackgrounds (backgroundRows steps) := by
  obtain ⟨s, steps, rfl⟩ := List.exists_cons_of_ne_nil h
  have hn : .background ∉ (s :: steps).map Step.row ++ [.separator] := by simp [Step.row]
  intro before after he
  rw [backgroundRows, List.cons_append] at he
  cases before
  case nil => exact ⟨s.keyword, s.text, _, (List.cons.inj he).right.symm⟩
  case cons r before =>
    rw [List.cons_append, List.cons.injEq] at he
    exact absurd (he.right ▸ List.mem_append_right before List.mem_cons_self) hn

theorem scenario (s : Scenario) : HasFilledBackgrounds s.rows :=
  of_not_mem (by simp [Scenario.rows, Step.row])

theorem feature {f : Feature} (h : ∀ steps ∈ f.background, steps ≠ []) : HasFilledBackgrounds f.rows := by
  have hb : HasFilledBackgrounds ((f.background.map backgroundRows).getD []) := by
    cases hf : f.background
    case none       => exact of_not_mem List.not_mem_nil
    case some steps => exact background (h steps hf)
  have hh : HasFilledBackgrounds [.feature f.name, .separator] := of_not_mem (by simp)
  exact (hh.append hb).append (flatMap fun s _ => scenario s)

theorem dropLast_rows {d : Document} (h : ∀ f ∈ d.features, ∀ steps ∈ f.background, steps ≠ []) :
    HasFilledBackgrounds d.rows.dropLast := by
  by_cases hn : d.features = []
  case pos => simp [Document.rows, hn, of_not_mem]
  case neg =>
    obtain ⟨before, last, he, _⟩ := d.rows_closed hn
    have hr : HasFilledBackgrounds d.rows := flatMap fun f hf => feature (h f hf)
    rw [he] at hr ⊢
    rw [List.dropLast_concat]
    exact hr.of_append_separator

end HasFilledBackgrounds

theorem background_documentOf_ne_nil {source : Text} :
    ∀ f ∈ (documentOf source).features, ∀ steps ∈ f.background, steps ≠ [] := by
  intro f hf steps hb
  obtain ⟨u, hu, rfl⟩ := List.mem_map.mp hf
  obtain ⟨steps, hs, rfl⟩ := Option.map_eq_some_iff.mp hb
  have hn := (Script.isWellFormed_of_mem_suites hu).background steps hs
  exact fun he => hn (List.mapIdx_eq_nil_iff.mp he)

end Gherkin

-- Everything that is read is well formed. So its labels have no quote marks to be stripped, and in the
-- rows that its Gherkin text is made of every background has a step.
theorem read_isWellFormed (source : Text) :
    (∀ u ∈ (Script.read source).suites, u.IsWellFormed) ∧
    (∀ s ∈ (Script.read source).steps, Text.stripQuotes s.label = s.label) ∧
    gherkinOf source = Text.unlines (Text.settle ((documentOf source).rows.dropLast.map Gherkin.Row.text)) ∧
    Gherkin.HasFilledBackgrounds (documentOf source).rows.dropLast := by
  refine ⟨fun u => Script.isWellFormed_of_mem_suites, fun s hs => ?labels, ?text, ?backgrounds⟩
  case labels =>
    obtain ⟨u, hu, hs⟩ := List.mem_flatMap.mp hs
    exact Text.stripQuotes_eq_self ((Script.isWellFormed_of_mem_suites hu).step s hs).label.unquoted
  case text        => exact Gherkin.Document.render_eq _
  case backgrounds => exact .dropLast_rows Gherkin.background_documentOf_ne_nil

end GherkinView
