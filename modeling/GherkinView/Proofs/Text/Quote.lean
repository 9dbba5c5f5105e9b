import Mathlib.Data.List.Basic
import GherkinView.Text.Quote

namespace GherkinView.Text

variable {t u x : Text} {c : Char}

theorem isQuote_iff : isQuote c = true ↔ c = '\x27' ∨ c = '\x22' ∨ c = '\x60' := by
  simp [isQuote, or_assoc]

theorem literals.mem_scan {state : Option Text} (h : x ∈ scan state t) (hc : c ∈ x) :
    c ∈ state.getD [] ∨ c ∈ t ∧ isQuote c = false := by
  induction t generalizing state
  case nil => simp [scan] at h
  case cons d r hi =>
    cases state
    case none =>
      have := hi h
      split at this <;> simp_all
    case some inner =>
      rw [scan] at h
      split at h
      case isTrue =>
        obtain rfl | h := List.mem_cons.mp h
        · exact .inl (List.mem_reverse.mp hc)
        · have := hi h
          simp_all
      case isFalse =>
        have := hi h
        simp at this
        grind

theorem mem_of_mem_literals (h : x ∈ literals t) (hc : c ∈ x) : c ∈ t ∧ isQuote c = false := by
  simpa using literals.mem_scan h hc

theorem mem_of_firstLiteral? (h : firstLiteral? t = some x) (hc : c ∈ x) :
    c ∈ t ∧ isQuote c = false :=
  mem_of_mem_literals (List.mem_of_head? h) hc

-- Without quote marks.
def Unquoted (t : Text) : Prop :=
  ∀ c ∈ t, isQuote c = false

instance : DecidablePred Unquoted := fun t =>
  decidable_of_iff (t.all (!isQuote ·) = true) (by simp [Unquoted])

theorem Unquoted.append (ht : Unquoted t) (hu : Unquoted u) : Unquoted (t ++ u) :=
  List.forall_mem_append.mpr ⟨ht, hu⟩

theorem Unquoted.mono (h : Unquoted t) (hu : u ⊆ t) : Unquoted u :=
  fun c hc => h c (hu hc)

theorem mem_stripQuotes : c ∈ stripQuotes t ↔ c ∈ t ∧ isQuote c = false := by
  simp [stripQuotes]

theorem unquoted_stripQuotes (t : Text) : Unquoted (stripQuotes t) :=
  fun _ hc => (mem_stripQuotes.mp hc).right

theorem stripQuotes_eq_self (h : Unquoted t) : stripQuotes t = t :=
  List.filter_eq_self.mpr fun c hc => by simp [h c hc]

theorem exists_first_quote (h : ¬Unquoted t) :
    ∃ u c v, t = u ++ c :: v ∧ Unquoted u ∧ isQuote c = true := by
  have hs : (t.find? isQuote).isSome := List.find?_isSome.mpr (by simpa [Unquoted] using h)
  have ⟨c, hf⟩ := Option.isSome_iff_exists.mp hs
  have ⟨hc, u, v, ht, hu⟩ := List.find?_eq_some_iff_append.mp hf
  exact ⟨u, c, v, ht, by simpa [Unquoted] using hu, hc⟩

-- Characters that are no quote marks extend the literal that is being read, if there is one.
theorem literals.scan_append (h : Unquoted u) (state : Option Text) (t : Text) :
    scan state (u ++ t) = scan (state.map (u.reverse ++ ·)) t := by
  induction u generalizing state
  case nil => cases state <;> rfl
  case cons c u hi =>
    have ⟨hc, hu⟩ := List.forall_mem_cons.mp h
    cases state <;> simp [scan, hc, hi hu]

theorem literals.scan_eq_nil (h : Unquoted t) (state : Option Text) : scan state t = [] := by
  rw [← List.append_nil t, scan_append h]
  cases state <;> rfl

theorem literals_append_quote (h : Unquoted u) (hc : isQuote c = true) (t : Text) :
    literals (u ++ c :: t) = literals.scan (some []) t := by
  simp [literals, literals.scan_append h, literals.scan, hc]

theorem literals.scan_append_quote (h : Unquoted u) (hc : isQuote c = true) (t : Text) :
    scan (some []) (u ++ c :: t) = u :: literals t := by
  simp [scan_append h, scan, hc, literals]

end GherkinView.Text
