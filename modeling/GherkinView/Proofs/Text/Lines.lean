import Mathlib.Data.List.DropRight
import GherkinView.Text.Basic

namespace GherkinView.Text

theorem lines_ne_nil (t : Text) : lines t ≠ [] :=
  List.splitOn_ne_nil '\n' t

theorem lines_cons (c : Char) (t : Text) :
    lines (c :: t) = if c = '\n' then [] :: lines t else (lines t).modifyHead (c :: ·) := by
  simp only [lines, List.splitOn_cons_eq_if_modifyHead, beq_iff_eq]

theorem lines_append (t u : Text) : lines (t ++ '\n' :: u) = lines t ++ lines u :=
  List.splitOnP_append_cons t u (BEq.refl '\n')

theorem not_mem_of_mem_lines {l t : Text} (h : l ∈ lines t) : '\n' ∉ l := by
  induction t generalizing l
  case nil => simp_all [lines]
  case cons c t hi =>
    have ⟨first, rest, hl⟩ := List.exists_cons_of_ne_nil (lines_ne_nil t)
    rw [lines_cons, hl] at h
    rw [hl] at hi
    split at h
    case isTrue =>
      obtain rfl | h := List.mem_cons.mp h
      · exact List.not_mem_nil
      · exact hi h
    case isFalse hc =>
      obtain rfl | h := List.mem_cons.mp h
      · simp [Ne.symm hc, hi List.mem_cons_self]
      · exact hi (List.mem_cons_of_mem _ h)

theorem lines_unlines {ls : List Text} (hn : ls ≠ []) (h : ∀ l ∈ ls, '\n' ∉ l) :
    lines (unlines ls) = ls :=
  List.splitOn_intercalate '\n' h hn

theorem unlines_singleton (l : Text) : unlines [l] = l := by
  simp [unlines, List.intercalate]

theorem unlines_cons {l : Text} {ls : List Text} (h : ls ≠ []) :
    unlines (l :: ls) = l ++ ['\n'] ++ unlines ls := by
  cases ls
  case nil  => contradiction
  case cons => simp [unlines, List.intercalate]

theorem unlines_append {ls ms : List Text} (hl : ls ≠ []) (hm : ms ≠ []) :
    unlines (ls ++ ms) = unlines ls ++ '\n' :: unlines ms := by
  induction ls
  case nil => contradiction
  case cons l ls hi =>
    by_cases hn : ls = []
    case pos => simp [hn, unlines_singleton, unlines_cons hm]
    case neg => simp [unlines_cons, hn, hi hn]

theorem unlines_concat {ls : List Text} {l : Text} (h : ls ≠ []) :
    unlines (ls ++ [l]) = unlines ls ++ '\n' :: l := by
  rw [unlines_append h (List.cons_ne_nil l []), unlines_singleton]

section Trim

variable {t u : Text} {c : Char}

theorem mem_of_mem_trim (h : c ∈ trim t) : c ∈ t := by
  simp only [trim, trimEnd, trimStart, List.mem_reverse] at h
  have := (List.dropWhile_sublist _).subset h
  exact (List.dropWhile_sublist _).subset (List.mem_reverse.mp this)

-- Not blank: a text that shows something.
def IsShown (t : Text) : Prop :=
  ∃ c ∈ t, isBlank c = false

theorem IsShown.append_left (t : Text) (h : IsShown u) : IsShown (t ++ u) :=
  have ⟨c, hc, hb⟩ := h
  ⟨c, List.mem_append_right _ hc, hb⟩

theorem IsShown.append_right (u : Text) (h : IsShown t) : IsShown (t ++ u) :=
  have ⟨c, hc, hb⟩ := h
  ⟨c, List.mem_append_left _ hc, hb⟩

theorem trim_cons (h : isBlank c = false) : trim (c :: t) = trimEnd (c :: t) := by
  simp [trim, trimStart, h]

theorem trimEnd_append_shown (h : IsShown u) : trimEnd (t ++ u) = t ++ trimEnd u := by
  have ⟨c, hc, hb⟩ := h
  have hd : u.reverse.dropWhile isBlank ≠ [] := by
    simp only [ne_eq, List.dropWhile_eq_nil_iff, List.mem_reverse]
    exact fun hall => by simp [hall c hc] at hb
  simp [trimEnd, List.dropWhile_append, hd]

theorem trimEnd_append_blank (h : ∀ c ∈ u, isBlank c) : trimEnd (t ++ u) = trimEnd t := by
  simp only [trimEnd, List.reverse_append]
  rw [List.dropWhile_append_of_pos (by simpa using h)]

-- Trimming cuts off blanks and nothing else.
theorem trimEnd_append_trimmed (t : Text) : ∃ u, (∀ c ∈ u, isBlank c) ∧ trimEnd t ++ u = t :=
  ⟨t.rtakeWhile isBlank, fun _ => List.mem_rtakeWhile_imp, List.rdropWhile_append_rtakeWhile⟩

theorem exists_blanks_trim (t : Text) :
    ∃ u v, (∀ c ∈ u, isBlank c) ∧ (∀ c ∈ v, isBlank c) ∧ t = u ++ (trim t ++ v) := by
  obtain ⟨v, hv, he⟩ := trimEnd_append_trimmed (trimStart t)
  refine ⟨t.takeWhile isBlank, v, fun _ => List.mem_takeWhile_imp, hv, ?_⟩
  rw [trim, he, trimStart, List.takeWhile_append_dropWhile]

theorem mem_trim_of_mem (hc : c ∈ t) (hb : isBlank c = false) : c ∈ trim t := by
  obtain ⟨u, v, hu, hv, he⟩ := exists_blanks_trim t
  have hn {w : Text} (hw : ∀ c ∈ w, isBlank c) : c ∉ w := fun hm => by simp [hw c hm] at hb
  rw [he, List.mem_append, List.mem_append] at hc
  exact (hc.resolve_left (hn hu)).resolve_right (hn hv)

theorem trimEnd_eq_self (h : ∀ c ∈ t.getLast?, isBlank c = false) : trimEnd t = t := by
  refine List.rdropWhile_eq_self_iff.mpr fun hn => ?_
  simp [h _ (List.getLast_mem_getLast? hn)]

end Trim

-- What is left of lines when the end of their text is trimmed.
def settle : List Text → List Text
  | [] => [[]]
  | [l] => [trimEnd l]
  | l :: ls => l :: settle ls

theorem settle_cons {l : Text} {ls : List Text} (h : ls ≠ []) :
    settle (l :: ls) = l :: settle ls := by
  cases ls
  case nil  => contradiction
  case cons => rfl

theorem settle_ne_nil (ls : List Text) : settle ls ≠ [] := by
  unfold settle
  split <;> simp

theorem settle_concat (ls : List Text) (l : Text) : settle (ls ++ [l]) = ls ++ [trimEnd l] := by
  induction ls
  case nil => rfl
  case cons m ls hi => rw [List.cons_append, settle_cons (by simp), hi, List.cons_append]

theorem settle_eq_self {ls : List Text} (hn : ls ≠ [])
    (h : ∀ l ∈ ls.getLast?, ∀ c ∈ l.getLast?, isBlank c = false) : settle ls = ls := by
  induction ls using settle.induct
  case case1 => contradiction
  case case2 l => rw [settle, trimEnd_eq_self (h l rfl)]
  case case3 l ls hl hi =>
    have hl : ls ≠ [] := hl
    rw [List.getLast?_cons_of_ne_nil hl] at h
    rw [settle_cons hl, hi hl h]

theorem newline_not_mem_settle {ls : List Text} (h : ∀ l ∈ ls, '\n' ∉ l) :
    ∀ l ∈ settle ls, '\n' ∉ l := by
  induction ls using settle.induct
  case case1 => simp [settle]
  case case2 l =>
    have ⟨u, _, he⟩ := trimEnd_append_trimmed l
    simp only [settle, List.mem_singleton, forall_eq] at h ⊢
    exact fun hm => h (he ▸ List.mem_append_left u hm)
  case case3 l ls hn hi =>
    simp only [settle_cons (fun h => hn h), List.mem_cons, forall_eq_or_imp] at h ⊢
    exact ⟨h.left, hi h.right⟩

theorem mem_settle_of_mem {l : Text} {ls : List Text} (h : l ∈ ls) :
    l ∈ settle ls ∨ trimEnd l ∈ settle ls := by
  induction ls using settle.induct
  case case1 => contradiction
  case case2 => simp_all [settle]
  case case3 l' ls hn hi =>
    rw [settle_cons (fun h => hn h)]
    obtain rfl | h := List.mem_cons.mp h
    · exact .inl List.mem_cons_self
    · exact (hi h).imp (List.mem_cons_of_mem _) (List.mem_cons_of_mem _)

theorem isShown_unlines {ls : List Text} (hn : ls ≠ []) (h : ∀ l ∈ ls.getLast?, IsShown l) :
    IsShown (unlines ls) := by
  induction ls
  case nil => contradiction
  case cons l ls hi =>
    by_cases hl : ls = []
    case pos => simpa [hl, unlines_singleton] using h
    case neg =>
      rw [List.getLast?_cons_of_ne_nil hl] at h
      exact unlines_cons hl ▸ (hi hl h).append_left _

theorem trimEnd_unlines {ls : List Text} (h : ∀ l ∈ ls.getLast?, IsShown l) :
    trimEnd (unlines ls) = unlines (settle ls) := by
  induction ls
  case nil => rfl
  case cons l ls hi =>
    by_cases hl : ls = []
    case pos => simp [hl, settle, unlines_singleton]
    case neg =>
      rw [List.getLast?_cons_of_ne_nil hl] at h
      rw [unlines_cons hl, settle_cons hl, unlines_cons (settle_ne_nil ls), ← hi h]
      exact trimEnd_append_shown (isShown_unlines hl h)

end GherkinView.Text
