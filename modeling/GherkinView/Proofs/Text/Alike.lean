import GherkinView.Proofs.Text.Lines

namespace GherkinView.Text

-- As many lines, and equal ones but for the blanks around them.
def Alike (t u : Text) : Prop :=
  (lines t).map trim = (lines u).map trim

instance : DecidableRel Alike := fun t u =>
  inferInstanceAs (Decidable ((lines t).map trim = (lines u).map trim))

-- The text without the blanks around its lines.
def trimLines (t : Text) : Text :=
  unlines ((lines t).map trim)

section Trim

variable {t u : Text}

theorem not_isShown_iff : ¬IsShown t ↔ ∀ c ∈ t, isBlank c = true := by
  simp [IsShown]

theorem trimStart_append_blank (h : ¬IsShown t) (u : Text) : trimStart (t ++ u) = trimStart u :=
  List.dropWhile_append_of_pos (not_isShown_iff.mp h)

theorem trimStart_append_shown (h : IsShown t) (u : Text) : trimStart (t ++ u) = trimStart t ++ u := by
  have hd : (t.dropWhile isBlank).isEmpty = false := by
    rw [List.isEmpty_eq_false_iff, ne_eq, List.dropWhile_eq_nil_iff, ← not_isShown_iff]
    exact not_not_intro h
  simp [trimStart, List.dropWhile_append, hd]

theorem trim_eq_nil_iff : trim t = [] ↔ ¬IsShown t := by
  constructor
  case mp =>
    rintro h ⟨c, hc, hb⟩
    exact List.ne_nil_of_mem (mem_trim_of_mem hc hb) h
  case mpr =>
    intro h
    have hs : trimStart t = [] := List.dropWhile_eq_nil_iff.mpr (not_isShown_iff.mp h)
    rw [trim, hs]
    rfl

theorem trim_trimStart (t : Text) : trim (trimStart t) = trim t := by
  rw [trim, trim, trimStart, trimStart, List.dropWhile_idempotent]

theorem trim_trimEnd (t : Text) : trim (trimEnd t) = trim t := by
  have ⟨v, hv, he⟩ := trimEnd_append_trimmed t
  conv_rhs => rw [← he]
  by_cases h : IsShown (trimEnd t)
  case pos => rw [trim, trim, trimStart_append_shown h, trimEnd_append_blank hv]
  case neg =>
    have hn : ¬IsShown (trimEnd t ++ v) :=
      not_isShown_iff.mpr (List.forall_mem_append.mpr ⟨not_isShown_iff.mp h, hv⟩)
    rw [trim_eq_nil_iff.mpr h, trim_eq_nil_iff.mpr hn]

theorem trim_trim (t : Text) : trim (trim t) = trim t := by
  rw [trim.eq_def t, trim_trimEnd, trim_trimStart, trim]

end Trim

-- What is left of trimmed lines when blank ones go at the start; one line always stays.
def dropBlankFirst : List Text → List Text
  | [] => []
  | l :: ls => if l.isEmpty && !ls.isEmpty then dropBlankFirst ls else l :: ls

-- The same at the end.
def dropBlankLast : List Text → List Text
  | [] => []
  | l :: ls => if ls.all (·.isEmpty) then [l] else l :: dropBlankLast ls

section Lines

variable {t : Text} {ls ms : List Text}

theorem unlines_lines (t : Text) : unlines (lines t) = t :=
  List.intercalate_splitOn '\n'

theorem lines_eq_singleton (h : '\n' ∉ t) : lines t = [t] := by
  rw [← unlines_singleton t, lines_unlines (List.cons_ne_nil _ _) (by simpa using h), unlines_singleton]

theorem lines_append_unlines (ht : '\n' ∉ t) (hn : ls ≠ []) (hl : ∀ l ∈ ls, '\n' ∉ l) :
    lines (t ++ ['\n'] ++ unlines ls) = t :: ls := by
  rw [List.append_assoc, List.singleton_append, lines_append, lines_eq_singleton ht, lines_unlines hn hl]
  rfl

theorem newline_not_mem_trimStart (h : '\n' ∉ t) : '\n' ∉ trimStart t :=
  fun hm => h ((List.dropWhile_sublist _).subset hm)

theorem newline_not_mem_trimEnd (h : '\n' ∉ t) : '\n' ∉ trimEnd t := by
  have ⟨v, _, he⟩ := trimEnd_append_trimmed t
  exact fun hm => h (he ▸ List.mem_append_left v hm)

theorem not_isShown_append_newline (h : ¬IsShown t) : ¬IsShown (t ++ ['\n']) :=
  not_isShown_iff.mpr (List.forall_mem_append.mpr ⟨not_isShown_iff.mp h, by simp [isBlank]⟩)

-- A text is blank if its lines are.
theorem isShown_unlines_iff (hn : ls ≠ []) :
    IsShown (unlines ls) ↔ ¬(ls.map trim).all (·.isEmpty) = true := by
  simp only [List.all_map, List.all_eq_true, Function.comp_apply, List.isEmpty_iff, trim_eq_nil_iff]
  induction ls
  case nil => contradiction
  case cons l ls hi =>
    by_cases hn : ls = []
    case pos => simp [hn, unlines_singleton]
    case neg =>
      have hs : IsShown (unlines (l :: ls)) ↔ IsShown l ∨ IsShown (unlines ls) := by
        rw [unlines_cons hn]
        simp [IsShown, or_and_right, exists_or, isBlank]
      rw [hs, hi hn, List.forall_mem_cons, not_and_or, not_not]

theorem map_trim_lines_trimStart (hn : ls ≠ []) (hl : ∀ l ∈ ls, '\n' ∉ l) :
    (lines (trimStart (unlines ls))).map trim = dropBlankFirst (ls.map trim) := by
  induction ls
  case nil => contradiction
  case cons l ls hi =>
    obtain ⟨h, hl⟩ := List.forall_mem_cons.mp hl
    by_cases hn : ls = []
    case pos =>
      rw [hn, unlines_singleton, lines_eq_singleton (newline_not_mem_trimStart h), List.map_singleton,
        trim_trimStart]
      simp [dropBlankFirst]
    case neg =>
      rw [unlines_cons hn, List.map_cons, dropBlankFirst]
      by_cases hs : IsShown l
      case pos =>
        have ht : (trim l).isEmpty = false := by simpa [trim_eq_nil_iff] using hs
        rw [List.append_assoc, trimStart_append_shown hs, ← List.append_assoc,
          lines_append_unlines (newline_not_mem_trimStart h) hn hl, List.map_cons, trim_trimStart, ht]
        rfl
      case neg =>
        have ht : trim l = [] := trim_eq_nil_iff.mpr hs
        rw [trimStart_append_blank (not_isShown_append_newline hs), hi hn hl, ht]
        simp [hn]

theorem map_trim_lines_trimEnd (hn : ls ≠ []) (hl : ∀ l ∈ ls, '\n' ∉ l) :
    (lines (trimEnd (unlines ls))).map trim = dropBlankLast (ls.map trim) := by
  induction ls
  case nil => contradiction
  case cons l ls hi =>
    obtain ⟨h, hl⟩ := List.forall_mem_cons.mp hl
    have hone : (lines (trimEnd l)).map trim = [trim l] := by
      rw [lines_eq_singleton (newline_not_mem_trimEnd h), List.map_singleton, trim_trimEnd]
    by_cases hn : ls = []
    case pos => simpa [hn, unlines_singleton, dropBlankLast] using hone
    case neg =>
      rw [unlines_cons hn, List.map_cons, dropBlankLast]
      by_cases hs : IsShown (unlines ls)
      case pos =>
        rw [if_neg ((isShown_unlines_iff hn).mp hs), trimEnd_append_shown hs, ← hi hn hl,
          ← unlines_lines (trimEnd (unlines ls)),
          lines_append_unlines h (lines_ne_nil _) fun _ => not_mem_of_mem_lines, unlines_lines]
        rfl
      case neg =>
        rw [if_pos (not_not.mp (mt (isShown_unlines_iff hn).mpr hs)), List.append_assoc,
          trimEnd_append_blank, hone]
        exact List.forall_mem_append.mpr ⟨by simp [isBlank], not_isShown_iff.mp hs⟩

-- Trimming a text trims its lines, and drops the blank ones at both ends.
theorem map_trim_lines_trim (t : Text) :
    (lines (trim t)).map trim = dropBlankLast (dropBlankFirst ((lines t).map trim)) := by
  have hs := map_trim_lines_trimStart (lines_ne_nil t) fun _ => not_mem_of_mem_lines
  have he := map_trim_lines_trimEnd (lines_ne_nil (trimStart t)) fun _ => not_mem_of_mem_lines
  rw [unlines_lines] at hs he
  rw [trim, he, hs]

end Lines

namespace Alike

variable {t u : Text} {ls ms : List Text}

theorem trim (h : Alike t u) : Alike (Text.trim t) (Text.trim u) := by
  rw [Alike, map_trim_lines_trim, map_trim_lines_trim, h]

theorem unlines (hl : ∀ l ∈ ls, '\n' ∉ l) (hm : ∀ m ∈ ms, '\n' ∉ m)
    (h : ls.map Text.trim = ms.map Text.trim) : Alike (Text.unlines ls) (Text.unlines ms) := by
  by_cases hn : ls = []
  case pos =>
    have : ms = [] := by simpa [hn] using h.symm
    rw [hn, this]
    rfl
  case neg =>
    have hm' : ms ≠ [] := by
      rintro rfl
      exact hn (List.map_eq_nil_iff.mp h)
    rw [Alike, lines_unlines hn hl, lines_unlines hm' hm, h]

end Alike

theorem lines_trimLines (t : Text) : lines (trimLines t) = (lines t).map trim := by
  refine lines_unlines (by simpa using lines_ne_nil t) (List.forall_mem_map.mpr fun l hl hm => ?_)
  exact not_mem_of_mem_lines hl (mem_of_mem_trim hm)

theorem trimLines_eq_iff {t u : Text} : trimLines t = trimLines u ↔ Alike t u := by
  refine ⟨fun h => ?_, congrArg unlines⟩
  rw [Alike, ← lines_trimLines, h, lines_trimLines]

end GherkinView.Text
