import Mathlib.Data.List.TakeWhile
import GherkinView.Proofs.Sentence.Values
import GherkinView.Proofs.Text.Words

namespace GherkinView

namespace Text

variable {t : Text}

-- What stands between the quote marks of a text, and in front of the first and behind the last one.
def pieces (t : Text) : List Text :=
  t.splitOnP isQuote

def oddBelow (n : Nat) : List Nat :=
  (List.range n).filter (· % 2 = 1)

-- Every other piece, and never the last one.
def enclosed (ps : List Text) : List Text :=
  (oddBelow (ps.length - 1)).filterMap (ps[·]?)

theorem oddBelow_add_two (n : Nat) : oddBelow (n + 2) = 1 :: (oddBelow n).map (· + 2) := by
  have hp : (fun k : Nat => decide (k % 2 = 1)) ∘ (· + 2) = fun k => decide (k % 2 = 1) := by
    funext k
    simp
  have hr : List.range (n + 2) = 0 :: 1 :: (List.range n).map (· + 2) := by
    simp [List.range_succ_eq_map]
  rw [oddBelow, hr, List.filter_cons_of_neg (by decide), List.filter_cons_of_pos (by decide),
    List.filter_map, hp, oddBelow]

theorem enclosed_cons_cons (p q : Text) {ps : List Text} (h : ps ≠ []) :
    enclosed (p :: q :: ps) = q :: enclosed ps := by
  have hl : (p :: q :: ps).length - 1 = ps.length - 1 + 2 := by
    have := List.length_pos_iff.mpr h
    simp only [List.length_cons]
    omega
  rw [enclosed, hl, oddBelow_add_two, List.filterMap_cons, List.filterMap_map]
  rfl

theorem pieces_ne_nil (t : Text) : pieces t ≠ [] :=
  List.splitOnP_ne_nil isQuote t

theorem pieces_append_quote {u : Text} {c : Char} (hu : Unquoted u) (hc : isQuote c = true) (t : Text) :
    pieces (u ++ c :: t) = u :: pieces t := by
  rw [pieces, List.splitOnP_append_cons u t hc, List.splitOnP_eq_singleton hu, List.singleton_append, pieces]

theorem pieces_of_unquoted (h : Unquoted t) : pieces t = [t] :=
  List.splitOnP_eq_singleton h

-- Induction on the text, which goes on behind the quote mark that ends its first literal.
theorem literals_eq_enclosed (t : Text) : literals t = enclosed (pieces t) := by
  by_cases ht : Unquoted t
  case pos => rw [pieces_of_unquoted ht, literals, literals.scan_eq_nil ht]; rfl
  case neg =>
    obtain ⟨u, c, v, rfl, hu, hc⟩ := exists_first_quote ht
    rw [pieces_append_quote hu hc, literals_append_quote hu hc]
    by_cases hv : Unquoted v
    case pos => rw [pieces_of_unquoted hv, literals.scan_eq_nil hv]; rfl
    case neg =>
      obtain ⟨x, d, r, rfl, hx, hd⟩ := exists_first_quote hv
      rw [pieces_append_quote hx hd, literals.scan_append_quote hx hd,
        enclosed_cons_cons _ _ (pieces_ne_nil r), ← literals_eq_enclosed r]
termination_by t.length
decreasing_by grind

end Text

namespace Sentence

open Text

variable {code b v : Text} {ls : List Text}

-- All that stands behind the first brace of the code, or the code itself.
inductive IsBody : Text → Text → Prop
  | behind {before b : Text} : '\x7b' ∉ before → IsBody (before ++ '\x7b' :: b) b
  | whole {code : Text} : '\x7b' ∉ code → IsBody code code

structure IsFirstValue (ls : List Text) (v : Text) : Prop where
  ne_nil : v ≠ []
  first : ∃ before after, ls = before ++ v :: after ∧ ∀ l ∈ before, l = []

theorem body_of_not_mem (h : '\x7b' ∉ code) : body code = code := by
  have hd : code.dropWhile (· != '\x7b') = [] :=
    List.dropWhile_eq_nil_iff.mpr fun c hc => bne_iff_ne.mpr fun he => h (he ▸ hc)
  rw [body, hd]

theorem isBody_iff : IsBody code b ↔ b = body code := by
  constructor
  case mp =>
    rintro (h | h)
    case behind => exact (body_append h b).symm
    case whole  => exact (body_of_not_mem h).symm
  case mpr =>
    rintro rfl
    by_cases h : '\x7b' ∈ code
    case neg => rw [body_of_not_mem h]; exact .whole h
    case pos =>
      obtain ⟨before, b, rfl, hn⟩ := List.eq_append_cons_of_mem h
      rw [body_append hn]
      exact .behind hn

theorem find?_eq_some_iff_isFirstValue : ls.find? (!·.isEmpty) = some v ↔ IsFirstValue ls v := by
  rw [List.find?_eq_some_iff_append]
  constructor
  case mp =>
    rintro ⟨hn, before, after, he, hb⟩
    exact ⟨by simpa using hn, before, after, he, by simpa using hb⟩
  case mpr =>
    rintro ⟨hn, before, after, he, hb⟩
    exact ⟨by simpa using hn, before, after, he, by simpa using hb⟩

theorem value?_eq_some_iff : value? code = some v ↔ IsFirstValue (enclosed (pieces (body code))) v := by
  rw [value?, literals_eq_enclosed, find?_eq_some_iff_isFirstValue]

-- The first value among the pieces of the body, between two double quotes, goes behind the first word;
-- where there is no such value or no such word, the sentence stays as it is.
theorem splice_eq_insertion (t code : Text) :
    (∀ b, IsBody code b ↔ b = body code) ∧
    literals (body code) = enclosed (pieces (body code)) ∧
    (∀ w rest v, IsFirstWord t w rest → IsFirstValue (enclosed (pieces (body code))) v →
      splice t code = w ++ " \x22".toList ++ v ++ "\x22".toList ++ rest) ∧
    ((∀ w rest, ¬IsFirstWord t w rest) ∨ (∀ v, ¬IsFirstValue (enclosed (pieces (body code))) v) →
      splice t code = t) := by
  refine ⟨fun b => isBody_iff, literals_eq_enclosed _, fun w rest v hw hv => ?inserted, fun h => ?left⟩
  case inserted =>
    obtain ⟨hn, rfl, rfl⟩ := isFirstWord_iff.mp hw
    rw [splice, value?_eq_some_iff.mpr hv]
    simp [insertValue, hn]
  case left =>
    cases hc : value? code
    case none => rw [splice, hc]
    case some v =>
      have hn : word t = [] := by
        by_contra hn
        obtain hw | hv := h
        · exact hw _ _ (isFirstWord_iff.mpr ⟨hn, rfl, rfl⟩)
        · exact hv v (value?_eq_some_iff.mp hc)
      rw [splice, hc]
      simp [insertValue, hn]

-- The empty literal is passed over, and the one that no quote mark ends is none.
example : splice "fill the form".toList "step(\x60tea\x60, () => \x7b fill(\x27\x22, \x27mint\x60); say(\x22".toList =
    "fill \x22mint\x22 the form".toList := by
  decide +kernel

end Sentence
end GherkinView
