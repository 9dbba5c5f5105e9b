import Mathlib
import GherkinView.Text.Case
import GherkinView.Text.Word

namespace GherkinView.Text

section Words

variable {t w rest : Text} {c : Char}

-- The text is `w`, as long as its characters are word characters, and then `rest`.
structure IsFirstWord (t w rest : Text) : Prop where
  eq : t = w ++ rest
  ne_nil : w ≠ []
  word : ∀ c ∈ w, isWord c = true
  longest : ∀ c ∈ rest.head?, isWord c = false

theorem word_append (hw : ∀ c ∈ w, isWord c = true) (hr : ∀ c ∈ rest.head?, isWord c = false) :
    word (w ++ rest) = w := by
  rw [word, List.takeWhile_append_of_pos hw]
  cases rest
  case nil      => rw [List.takeWhile_nil, List.append_nil]
  case cons c r => simp [hr c rfl]

theorem afterWord_append (hw : ∀ c ∈ w, isWord c = true) (hr : ∀ c ∈ rest.head?, isWord c = false) :
    afterWord (w ++ rest) = rest := by
  rw [afterWord, List.dropWhile_append_of_pos hw]
  cases rest
  case nil      => rfl
  case cons c r => simp [hr c rfl]

theorem word_append_afterWord (t : Text) : word t ++ afterWord t = t :=
  List.takeWhile_append_dropWhile

theorem isWord_of_mem_word (h : c ∈ word t) : isWord c = true :=
  List.mem_takeWhile_imp h

theorem not_isWord_of_head?_afterWord (h : c ∈ (afterWord t).head?) : isWord c = false := by
  have := List.head?_dropWhile_not isWord t
  rwa [← afterWord, Option.mem_def.mp h] at this

theorem word_append_of_head (hr : ∀ c ∈ rest.head?, isWord c = false) : word (t ++ rest) = word t := by
  have hh : ∀ c ∈ (afterWord t ++ rest).head?, isWord c = false := by
    intro c hc
    cases ht : afterWord t
    case nil      => exact hr c (by simpa [ht] using hc)
    case cons d r => exact not_isWord_of_head?_afterWord (t := t) (by simpa [ht] using hc)
  conv_lhs => rw [← word_append_afterWord t, List.append_assoc, word_append (fun _ => isWord_of_mem_word) hh]

theorem isFirstWord_iff : IsFirstWord t w rest ↔ word t ≠ [] ∧ w = word t ∧ rest = afterWord t := by
  constructor
  case mp =>
    rintro ⟨rfl, hn, hw, hr⟩
    rw [word_append hw hr, afterWord_append hw hr]
    exact ⟨hn, rfl, rfl⟩
  case mpr =>
    rintro ⟨hn, rfl, rfl⟩
    exact ⟨(word_append_afterWord t).symm, hn, fun _ => isWord_of_mem_word,
      fun _ => not_isWord_of_head?_afterWord⟩

theorem word_ne_nil_iff : word t ≠ [] ↔ ∃ c ∈ t.head?, isWord c = true := by
  cases t
  case nil      => simp [word]
  case cons c r => cases hc : isWord c <;> simp [word, hc]

def blankCodes : List Nat :=
  List.range' 0x09 5 ++ List.range' 0x1C 5 ++ List.range' 0x2000 11 ++
    [0x85, 0xA0, 0x1680, 0x2028, 0x2029, 0x202F, 0x205F, 0x3000]

theorem not_isWord_of_isBlank (h : isBlank c = true) : isWord c = false := by
  have key : ∀ n ∈ blankCodes, isWord (Char.ofNat n) = false := by decide +kernel
  have hm : c.toNat ∈ blankCodes := by
    simp [isBlank] at h
    simp [blankCodes, List.mem_range'_1]
    omega
  simpa using key c.toNat hm

end Words

section Case

variable {c l : Char}

theorem isWord_of_isAlpha (h : c.isAlpha = true) : isWord c = true := by
  have hc : c.toNat < 0x80 := by
    simp only [Char.isAlpha, Char.isUpper, Char.isLower, Bool.or_eq_true, Bool.and_eq_true, decide_eq_true_eq,
      UInt32.le_iff_toNat_le, ge_iff_le] at h
    change (65 ≤ c.toNat ∧ c.toNat ≤ 90) ∨ (97 ≤ c.toNat ∧ c.toNat ≤ 122) at h
    omega
  simp [isWord, hc, Char.isAlphanum, h]

-- Only letters are changed.
theorem eq_of_toLower_eq (hl : l.isLower = false) (h : c.toLower = l) : c = l := by
  by_cases hc : c.isUpper = true
  case neg => rwa [Char.toLower_eq_of_not_isUpper hc] at h
  case pos =>
    rw [← h, Char.isLower_toLower_eq_isAlpha, Char.isAlpha, hc, Bool.true_or] at hl
    contradiction

-- Case is ignored as in `lower`, but for four characters outside ASCII.
theorem foldChar_cases (c : Char) :
    c = '\u212a' ∨ c = '\u0130' ∨ c = '\u0131' ∨ c = '\u017f' ∨
    foldChar c = c.toLower ∧ lowerChar c = [c.toLower] := by
  unfold foldChar lowerChar
  split_ifs <;> simp_all

theorem isWord_of_foldChar (h : (foldChar c).isLower = true) : isWord c = true := by
  obtain rfl | rfl | rfl | rfl | ⟨hc, _⟩ := foldChar_cases c
  case inr.inr.inr.inr =>
    rw [hc, Char.isLower_toLower_eq_isAlpha] at h
    exact isWord_of_isAlpha h
  all_goals decide +kernel

theorem eq_of_foldChar_eq (hl : l.isLower = false) (h : foldChar c = l) : c = l := by
  obtain rfl | rfl | rfl | rfl | ⟨hc, _⟩ := foldChar_cases c
  case inr.inr.inr.inr => exact eq_of_toLower_eq hl (hc ▸ h)
  all_goals
    rw [← h] at hl
    exact absurd hl (by decide)

end Case

end GherkinView.Text
