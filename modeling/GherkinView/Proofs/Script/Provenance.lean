import GherkinView.Proofs.Script.Segment
import GherkinView.Proofs.Text.Lines
import GherkinView.Proofs.Text.Quote

namespace GherkinView.Script

def Suite.steps (s : Suite) : List Step :=
  s.background.getD [] ++ s.cases.flatMap (·.steps)

def steps (s : Script) : List Step :=
  s.suites.flatMap Suite.steps

namespace LineKind

-- What a line calls its suite, case or step.
def label? : LineKind → Option Text
  | suite label | case label | step label _ => some label
  | _ => none

theorem firstLiteral?_of_labelOf? {t x : Text} (h : labelOf? t = some x) : Text.firstLiteral? t = some x :=
  (Option.filter_eq_some_iff.mp h).left

theorem getD_labelOf?_cases (t other : Text) :
    (labelOf? t).getD other = other ∨ Text.firstLiteral? t = some ((labelOf? t).getD other) := by
  cases h : labelOf? t
  case none => exact .inl rfl
  case some => exact .inr (firstLiteral?_of_labelOf? h)

-- A label is a literal of its line, or stands for one that is missing.
theorem label_cases {depth : Int} {line x : Text} {ls : List Text} (h : (of depth line ls).label? = some x) :
    x = unnamedSuite ∨ x = unnamedCase ∨ Text.firstLiteral? (Text.trim line) = some x := by
  simp only [of] at h
  split_ifs at h <;> try contradiction
  case pos => exact (Option.some.inj h ▸ getD_labelOf?_cases _ _).imp_right .inr
  case pos => exact .inr (Option.some.inj h ▸ getD_labelOf?_cases _ _)
  case pos =>
    split at h
    case h_1 hl => exact .inr (.inr (firstLiteral?_of_labelOf? (hl.trans h)))
    case h_2    => contradiction

theorem newline_not_mem_label {depth : Int} {line x : Text} {ls : List Text} (hl : '\n' ∉ line)
    (h : (of depth line ls).label? = some x) : '\n' ∉ x := by
  obtain rfl | rfl | h := label_cases h
  · decide
  · decide
  · exact fun hx => hl (Text.mem_of_mem_trim (Text.mem_of_firstLiteral? h hx).left)

section Marked

variable {depth : Int} {line name label code : Text} {ls : List Text}

theorem isSuite_of_suite (h : of depth line ls = .suite name) : Marker.isSuite (Text.trim line) = true := by
  simp only [of] at h
  split_ifs at h
  case pos hs => exact hs
  case pos    => split at h <;> contradiction

theorem isCase_of_case (h : of depth line ls = .case name) : Marker.isCase (Text.trim line) = true := by
  simp only [of] at h
  split_ifs at h
  case pos hc => exact hc
  case pos    => split at h <;> contradiction

theorem isStep_of_step (h : of depth line ls = .step label code) :
    Marker.isStep (Text.trim line) = true ∧ labelOf? (Text.trim line) = some label ∧
      code = captureBlock ls := by
  simp only [of] at h
  split_ifs at h
  case pos hs =>
    split at h
    case h_2    => contradiction
    case h_1 hl =>
      cases h
      exact ⟨hs, hl, rfl⟩

end Marked

end LineKind

variable {ls : List Line} {u : Suite} {c : Case} {s : Step}

theorem mem_of_mem_segment {t : List Line} (h : t ∈ segment ls) : t <:+ ls :=
  (List.mem_tails t ls).mp ((List.takeWhile_sublist _).subset h)

theorem exists_suffix_of_suite (h : u ∈ segmented ls) :
    ∃ (number : Nat) (rest : List Line), (⟨number, .suite u.name⟩ :: rest) <:+ ls ∧ u.line = number ∧
      u.cases = (segment rest).filterMap caseFrom? ∧
      u.background = ((segment rest).filterMap backgroundFrom?).getLast? := by
  have ⟨t, ht, hu⟩ := List.mem_filterMap.mp h
  unfold suiteFrom? at hu
  split at hu <;> cases hu
  exact ⟨_, _, (List.mem_tails _ _).mp ht, rfl, rfl, rfl⟩

theorem exists_line_of_suite (h : u ∈ segmented ls) :
    ∃ l ∈ ls, l.kind = .suite u.name ∧ u.line = l.number := by
  have ⟨number, rest, hs, hl, _⟩ := exists_suffix_of_suite h
  exact ⟨_, hs.subset List.mem_cons_self, rfl, hl⟩

theorem exists_suffix_of_case (h : u ∈ segmented ls) (hc : c ∈ u.cases) :
    ∃ (number : Nat) (rest : List Line), (⟨number, .case c.name⟩ :: rest) <:+ ls ∧ c.line = number ∧
      c.steps = stepsAhead rest := by
  have ⟨_, rest, hs, _, hu, _⟩ := exists_suffix_of_suite h
  have ⟨t, ht, hf⟩ := List.mem_filterMap.mp (hu ▸ hc)
  have ht := (mem_of_mem_segment ht).trans ((List.suffix_cons _ _).trans hs)
  unfold caseFrom? at hf
  split at hf
  case h_2 => contradiction
  case h_1 =>
    split at hf <;> cases hf
    exact ⟨_, _, ht, rfl, rfl⟩

theorem exists_line_of_case (h : u ∈ segmented ls) (hc : c ∈ u.cases) :
    ∃ l ∈ ls, l.kind = .case c.name ∧ c.line = l.number := by
  have ⟨number, rest, hs, hl, _⟩ := exists_suffix_of_case h hc
  exact ⟨_, hs.subset List.mem_cons_self, rfl, hl⟩

theorem exists_suffix_of_background {steps : List Step} (h : u ∈ segmented ls)
    (hb : u.background = some steps) :
    ∃ (number : Nat) (rest : List Line), (⟨number, .setup⟩ :: rest) <:+ ls ∧ steps = stepsAhead rest := by
  have ⟨_, rest, hs, _, _, hu⟩ := exists_suffix_of_suite h
  have hm := List.mem_of_getLast? (hu.symm.trans hb)
  have ⟨t, ht, hf⟩ := List.mem_filterMap.mp hm
  have ht := (mem_of_mem_segment ht).trans ((List.suffix_cons _ _).trans hs)
  unfold backgroundFrom? at hf
  split at hf
  case h_2 => contradiction
  case h_1 =>
    split at hf <;> cases hf
    exact ⟨_, _, ht, rfl⟩

-- A setup without steps is no background.
theorem ne_nil_of_background {steps : List Step} (h : u ∈ segmented ls)
    (hb : u.background = some steps) : steps ≠ [] := by
  have ⟨_, rest, _, _, _, hu⟩ := exists_suffix_of_suite h
  have ⟨t, _, hf⟩ := List.mem_filterMap.mp (List.mem_of_getLast? (hu.symm.trans hb))
  unfold backgroundFrom? at hf
  split at hf
  case h_2 => contradiction
  case h_1 =>
    split at hf
    case isFalse   => cases hf
    case isTrue hc => cases hf; simpa using (Bool.and_eq_true_iff.mp hc).right

theorem exists_line_of_mem_stepsAhead (h : s ∈ stepsAhead ls) : ∃ l ∈ ls, l.step? = some s := by
  have ⟨l, hl, hs⟩ := List.mem_filterMap.mp h
  exact ⟨l, (List.takeWhile_sublist _).subset hl, hs⟩

theorem exists_line_of_step (h : u ∈ segmented ls) (hs : s ∈ u.steps) :
    ∃ l ∈ ls, l.step? = some s := by
  have key {l rest} (ht : l :: rest <:+ ls) (hm : s ∈ stepsAhead rest) : ∃ l ∈ ls, l.step? = some s :=
    have ⟨l', hl, hs⟩ := exists_line_of_mem_stepsAhead hm
    ⟨l', ht.subset (List.mem_cons_of_mem l hl), hs⟩
  obtain hs | hs := List.mem_append.mp hs
  case inl =>
    cases hb : u.background
    case none => simp [hb] at hs
    case some steps =>
      have ⟨_, _, ht, he⟩ := exists_suffix_of_background h hb
      exact key ht (by simpa [hb, he] using hs)
  case inr =>
    have ⟨c, hc, hs⟩ := List.mem_flatMap.mp hs
    have ⟨_, _, ht, _, he⟩ := exists_suffix_of_case h hc
    exact key ht (he ▸ hs)

variable {source : Text}

theorem newline_not_mem_line {l : Line} {x : Text} (h : l ∈ classify (Text.lines source))
    (hx : l.kind.label? = some x) : '\n' ∉ x := by
  obtain ⟨i, hi, rfl⟩ := List.mem_mapIdx.mp h
  exact LineKind.newline_not_mem_label (Text.not_mem_of_mem_lines (List.getElem_mem hi)) hx

theorem mem_suites_read :
    u ∈ (read source).suites ↔ u ∈ segmented (classify (Text.lines source)) := by
  rw [read_eq_ofLines, suites_ofLines]

theorem newline_not_mem_suite (h : u ∈ (read source).suites) : '\n' ∉ u.name :=
  have ⟨_, hl, hk, _⟩ := exists_line_of_suite (mem_suites_read.mp h)
  newline_not_mem_line hl (hk ▸ rfl)

theorem newline_not_mem_case (h : u ∈ (read source).suites) (hc : c ∈ u.cases) : '\n' ∉ c.name :=
  have ⟨_, hl, hk, _⟩ := exists_line_of_case (mem_suites_read.mp h) hc
  newline_not_mem_line hl (hk ▸ rfl)

theorem label?_of_step? {l : Line} (h : l.step? = some s) : l.kind.label? = some s.label := by
  unfold Line.step? at h
  split at h <;> cases h
  simp [LineKind.label?, *]

theorem newline_not_mem_step (h : u ∈ (read source).suites) (hs : s ∈ u.steps) : '\n' ∉ s.label :=
  have ⟨_, hl, hk⟩ := exists_line_of_step (mem_suites_read.mp h) hs
  newline_not_mem_line hl (label?_of_step? hk)

end GherkinView.Script
