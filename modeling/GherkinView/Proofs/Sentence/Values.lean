import Mathlib.Data.List.Basic
import GherkinView.Proofs.Text.Quote
import GherkinView.Sentence.Splice

namespace GherkinView.Sentence

open Text

-- What stands before the label of a step, and between the label and the body of its callback.
def stepOpening : Text := "await test.step(".toList

def callbackOpening : Text := ", async () => ".toList

-- The code of a step, as it is usually called.
def stepCall (quote : Char) (label callback : Text) : Text :=
  stepOpening ++ quote :: label ++ quote :: callbackOpening ++ '\x7b' :: callback

theorem body_append {before : Text} (h : '\x7b' ∉ before) (after : Text) :
    body (before ++ '\x7b' :: after) = after := by
  have hb : ∀ c ∈ before, (c != '\x7b') = true := fun c hc => bne_iff_ne.mpr fun he => h (he ▸ hc)
  rw [body, List.dropWhile_append_of_pos hb]
  rfl

section StepCall

variable {quote : Char} {label callback : Text}

theorem brace_ne_quote (h : isQuote quote = true) : '\x7b' ≠ quote := by
  rintro rfl
  contradiction

theorem brace_not_mem_start (hq : isQuote quote = true) (h : '\x7b' ∉ label) :
    '\x7b' ∉ stepOpening ++ quote :: label :=
  List.not_mem_append (by decide) (List.not_mem_cons_of_ne_of_not_mem (brace_ne_quote hq) h)

theorem body_stepCall (hq : isQuote quote = true) (h : '\x7b' ∉ label) :
    body (stepCall quote label callback) = callback := by
  have ho : '\x7b' ∉ quote :: callbackOpening :=
    List.not_mem_cons_of_ne_of_not_mem (brace_ne_quote hq) (by decide)
  exact body_append (List.not_mem_append (brace_not_mem_start hq h) ho) callback

-- Behind a brace in the label comes what is left of the label, and then its closing quote mark.
theorem body_stepCall_of_brace (hq : isQuote quote = true) (h : '\x7b' ∈ label)
    (callback : Text) : ∃ rest, rest ⊆ label ∧
      body (stepCall quote label callback) =
        rest ++ quote :: (callbackOpening ++ '\x7b' :: callback) := by
  obtain ⟨start, rest, rfl, hn⟩ := List.eq_append_cons_of_mem h
  have he : stepCall quote (start ++ '\x7b' :: rest) callback =
      (stepOpening ++ quote :: start) ++
        '\x7b' :: (rest ++ quote :: (callbackOpening ++ '\x7b' :: callback)) := by
    simp only [stepCall, List.append_assoc, List.cons_append]
  refine ⟨rest, ?_, ?_⟩
  case refine_1 => exact List.subset_append_of_subset_right _ (List.subset_cons_self _ _)
  case refine_2 => rw [he, body_append (brace_not_mem_start hq hn)]

-- So the first literal starts with the opening of the callback, if there is any.
theorem value?_stepCall_of_brace (hq : isQuote quote = true) (hl : Unquoted label)
    (h : '\x7b' ∈ label) :
    value? (stepCall quote label callback) =
      if Unquoted callback then none
      else some (callbackOpening ++ '\x7b' :: callback.takeWhile (!isQuote ·)) := by
  have ⟨rest, hr, hb⟩ := body_stepCall_of_brace hq h callback
  have hr : Unquoted rest := fun c hc => hl c (hr hc)
  have ho : Unquoted (callbackOpening ++ ['\x7b']) := by decide
  rw [value?, hb, literals_append_quote hr hq]
  split
  case isTrue hc =>
    rw [List.append_cons, literals.scan_eq_nil (ho.append hc)]
    rfl
  case isFalse hc =>
    obtain ⟨start, mark, rest, rfl, hs, hm⟩ := exists_first_quote hc
    have ht : (start ++ mark :: rest).takeWhile (!isQuote ·) = start := by
      rw [List.takeWhile_append_of_pos (by simpa [Unquoted] using hs)]
      simp [hm]
    have hf : Unquoted (callbackOpening ++ '\x7b' :: start) := by
      rw [List.append_cons]
      exact ho.append hs
    have he : callbackOpening ++ '\x7b' :: (start ++ mark :: rest) =
        (callbackOpening ++ '\x7b' :: start) ++ mark :: rest := by simp
    rw [he, literals.scan_append_quote hf hm, ht]
    rfl

end StepCall

section Insertion

variable {t v w : Text}

theorem length_insertValue (h : (word t).isEmpty = false) :
    (insertValue t v).length = t.length + v.length + 3 := by
  have hl : (word t).length + (afterWord t).length = t.length := by
    rw [← List.length_append, word, afterWord, List.takeWhile_append_dropWhile]
  simp [insertValue, h]
  omega

theorem insertValue_ne (h : (word t).isEmpty = false) : insertValue t v ≠ t := by
  intro he
  have := congrArg List.length he
  rw [length_insertValue h] at this
  omega

theorem insertValue_inj (h : (word t).isEmpty = false)
    (he : insertValue t v = insertValue t w) : v = w := by
  simpa [insertValue, h] using he

-- Codes that do the same to every sentence have the same value.
theorem splice_eq_iff {c d : Text} : (∀ t, splice t c = splice t d) ↔ value? c = value? d := by
  constructor
  case mpr => intro h t; rw [splice, splice, h]
  case mp =>
    intro h
    have hw : (word ['a']).isEmpty = false := by decide
    have ha := h ['a']
    unfold splice at ha
    cases hc : value? c <;> cases hd : value? d <;> simp only [hc, hd] at ha
    case none.none => rfl
    case none.some => exact absurd ha.symm (insertValue_ne hw)
    case some.none => exact absurd ha (insertValue_ne hw)
    case some.some => rw [insertValue_inj hw ha]

end Insertion

-- A step is told with the value of its callback exactly if its label has no brace, or there is no
-- quote mark behind it, or the callback holds its own opening as its value.
theorem splice_stepCall_iff {quote : Char} {label : Text} (hq : isQuote quote = true)
    (hl : Unquoted label) (callback : Text) :
    (∀ t, splice t (stepCall quote label callback) = splice t ('\x7b' :: callback)) ↔
      '\x7b' ∉ label ∨ Unquoted callback ∨
        (literals callback).find? (!·.isEmpty) =
          some (callbackOpening ++ '\x7b' :: callback.takeWhile (!isQuote ·)) := by
  have hv : value? ('\x7b' :: callback) = (literals callback).find? (!·.isEmpty) := rfl
  rw [splice_eq_iff, hv]
  by_cases hb : '\x7b' ∈ label
  case neg => simp [hb, value?, body_stepCall hq hb]
  case pos =>
    rw [value?_stepCall_of_brace hq hl hb]
    by_cases hc : Unquoted callback
    case pos =>
      have hn : literals callback = [] := literals.scan_eq_nil hc none
      rw [if_pos hc, hn]
      exact iff_of_true rfl (.inr (.inl hc))
    case neg =>
      rw [if_neg hc, eq_comm]
      constructor
      case mp  => exact fun h => .inr (.inr h)
      case mpr => exact fun h => (h.resolve_left (not_not_intro hb)).resolve_left hc

theorem splice_stepCall_unbraced :
    isQuote '\x27' = true ∧ Unquoted "search products".toList ∧
      ∀ t, splice t (stepCall '\x27' "search products".toList "\n  fill(\"#q\");\n\x7d);".toList) =
        splice t "\x7b\n  fill(\"#q\");\n\x7d);".toList :=
  ⟨by decide, by decide, (splice_stepCall_iff (by decide) (by decide) _).mpr (.inl (by decide))⟩

-- A label that holds a brace, in quote marks of its own kind, in front of a callback with a value.
theorem splice_stepCall_braced :
    isQuote '\x60' = true ∧ Unquoted "open $\x7bname\x7d".toList ∧ '\n' ∉ "open $\x7bname\x7d".toList ∧
      splice "search products".toList
          (stepCall '\x60' "open $\x7bname\x7d".toList "\n  goto('/home');\n\x7d);".toList) ≠
        splice "search products".toList "\x7b\n  goto('/home');\n\x7d);".toList := by
  decide +kernel

end GherkinView.Sentence
