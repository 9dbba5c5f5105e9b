import Mathlib.Data.List.Infix
import GherkinView.Json

namespace GherkinView.Json

-- No number goes on here.
def NoDigit (r : Text) : Prop :=
  ∀ c ∈ r.head?, c.isDigit = false

-- What is written for `a` is written for nothing else, and ends where it does whatever comes behind.
def IsToldApart {α : Type} (write : α → Text) (a : α) : Prop :=
  ∀ ⦃a' : α⦄ ⦃r r' : Text⦄, NoDigit r → NoDigit r' → write a ++ r = write a' ++ r' → a = a' ∧ r = r'

variable {c c' opening closing : Char} {r r' t t' : Text} {depth : Nat}

-- Numbers

theorem isDigit_of_mem_ofNat {n : Nat} (h : c ∈ Text.ofNat n) : c.isDigit = true :=
  Nat.isDigit_of_mem_toDigits (by decide) (by decide) h

theorem ofNat_inj {n n' : Nat} (h : Text.ofNat n = Text.ofNat n') : n = n' := by
  rw [← @Nat.ofDigitChars_ten_toDigits n, ← @Nat.ofDigitChars_ten_toDigits n']
  exact congrArg (Nat.ofDigitChars 10 · 0) h

theorem takeWhile_ofNat_append (n : Nat) (hr : NoDigit r) :
    (Text.ofNat n ++ r).takeWhile Char.isDigit = Text.ofNat n := by
  rw [List.takeWhile_append_of_pos fun c => isDigit_of_mem_ofNat]
  cases r
  case nil      => simp
  case cons c r => simp [hr c rfl]

theorem ofNat_append_inj {n n' : Nat} (hr : NoDigit r) (hr' : NoDigit r')
    (h : Text.ofNat n ++ r = Text.ofNat n' ++ r') : n = n' ∧ r = r' := by
  have hn : Text.ofNat n = Text.ofNat n' := by
    rw [← takeWhile_ofNat_append n hr, h, takeWhile_ofNat_append n' hr']
  exact ⟨ofNat_inj hn, List.append_cancel_left (hn ▸ h)⟩

theorem ofNat_append_ne (n n' : Nat) : Text.ofNat n ++ r ≠ '-' :: (Text.ofNat n' ++ r') := by
  intro h
  obtain ⟨c, s, hs⟩ := List.exists_cons_of_ne_nil (show Text.ofNat n ≠ [] from Nat.toDigits_ne_nil)
  have hc : c.isDigit = true := isDigit_of_mem_ofNat (hs ▸ List.mem_cons_self)
  rw [hs] at h
  obtain ⟨rfl, _⟩ := List.cons.inj h
  contradiction

theorem isToldApart_ofInt (n : Int) : IsToldApart Text.ofInt n := by
  intro n' r r' hr hr' h
  cases n <;> cases n'
  case ofNat.ofNat n n' =>
    obtain ⟨rfl, rfl⟩ := ofNat_append_inj hr hr' h
    exact ⟨rfl, rfl⟩
  case ofNat.negSucc => exact absurd h (ofNat_append_ne _ _)
  case negSucc.ofNat => exact absurd h.symm (ofNat_append_ne _ _)
  case negSucc.negSucc n n' =>
    obtain ⟨hn, rfl⟩ := ofNat_append_inj hr hr' (List.cons.inj h).right
    exact ⟨congrArg _ (Nat.succ.inj hn), rfl⟩

-- Strings

-- The characters that are written as escapes.
def escaped : List Char :=
  '\x22' :: '\\' :: (List.range 0x20).map Char.ofNat

theorem escapeChar_cases (c : Char) :
    c ∈ escaped ∨ escapeChar c = [c] ∧ c ≠ '\x22' ∧ c ≠ '\\' := by
  by_cases hc : c.toNat < 0x20
  case pos =>
    have hm : Char.ofNat c.toNat ∈ (List.range 0x20).map Char.ofNat :=
      List.mem_map_of_mem (List.mem_range.mpr hc)
    rw [Char.ofNat_toNat] at hm
    exact .inl (List.mem_cons_of_mem _ (List.mem_cons_of_mem _ hm))
  case neg =>
    unfold escapeChar
    split
    case h_8 hq hs _ _ _ _ _ => exact .inr ⟨if_neg hc, hq, hs⟩
    all_goals exact .inl (by decide)

theorem escapeChar_of_escaped (h : c ∈ escaped) : ∃ e, escapeChar c = '\\' :: e := by
  have ha : escaped.all (fun c => (escapeChar c).head? == some '\\') = true := by decide +kernel
  exact List.head?_eq_some_iff.mp (beq_iff_eq.mp (List.all_eq_true.mp ha c h))

theorem eq_of_prefix_escapeChar (h : c ∈ escaped) (h' : c' ∈ escaped) (hp : escapeChar c <+: escapeChar c') :
    c = c' := by
  have ha : escaped.all (fun c => escaped.all fun c' =>
      !(escapeChar c).isPrefixOf (escapeChar c') || c == c') = true := by decide +kernel
  have he := List.all_eq_true.mp (List.all_eq_true.mp ha c h) c' h'
  simpa [List.isPrefixOf_iff_prefix.mpr hp] using he

theorem escapeChar_append_inj (h : escapeChar c ++ r = escapeChar c' ++ r') : c = c' ∧ r = r' := by
  have hc : c = c' := by
    obtain hm | ⟨he, _, hn⟩ := escapeChar_cases c <;> obtain hm' | ⟨he', _, hn'⟩ := escapeChar_cases c'
    case inl.inl =>
      obtain hp | hp := List.prefix_or_prefix_of_prefix ⟨r, h⟩ ⟨r', rfl⟩
      · exact eq_of_prefix_escapeChar hm hm' hp
      · exact (eq_of_prefix_escapeChar hm' hm hp).symm
    case inl.inr =>
      obtain ⟨e, he⟩ := escapeChar_of_escaped hm
      rw [he, he'] at h
      exact absurd (List.cons.inj h).left.symm hn'
    case inr.inl =>
      obtain ⟨e, he'⟩ := escapeChar_of_escaped hm'
      rw [he, he'] at h
      exact absurd (List.cons.inj h).left hn
    case inr.inr =>
      rw [he, he'] at h
      exact (List.cons.inj h).left
  exact ⟨hc, List.append_cancel_left (hc ▸ h)⟩

-- No character is written with a quote mark in front.
theorem escapeChar_append_ne_quote (c : Char) : escapeChar c ++ r ≠ '\x22' :: r' := by
  intro h
  obtain hm | ⟨he, hn, _⟩ := escapeChar_cases c
  case inl =>
    obtain ⟨e, he⟩ := escapeChar_of_escaped hm
    rw [he] at h
    exact absurd (List.cons.inj h).left (by decide)
  case inr =>
    rw [he] at h
    exact hn (List.cons.inj h).left

theorem quoted_append_inj (h : quoted t ++ r = quoted t' ++ r') : t = t' ∧ r = r' := by
  replace h : t.flatMap escapeChar ++ '\x22' :: r = t'.flatMap escapeChar ++ '\x22' :: r' := by
    simpa [quoted] using h
  induction t generalizing t' <;> cases t'
  case nil.nil  => exact ⟨rfl, (List.cons.inj h).right⟩
  case nil.cons =>
    rw [List.flatMap_cons, List.append_assoc] at h
    exact absurd h.symm (escapeChar_append_ne_quote _)
  case cons.nil =>
    rw [List.flatMap_cons, List.append_assoc] at h
    exact absurd h (escapeChar_append_ne_quote _)
  case cons.cons c t hi c' t' =>
    rw [List.flatMap_cons, List.flatMap_cons, List.append_assoc, List.append_assoc] at h
    obtain ⟨rfl, ht⟩ := escapeChar_append_inj h
    obtain ⟨rfl, hr⟩ := hi ht
    exact ⟨rfl, hr⟩

-- Items in brackets

-- What stands behind an item: the others, and the bracket that closes.
def behindItem (closing : Char) (depth : Nat) : List Text → Text
  | [] => newline depth ++ [closing]
  | t :: ts => ',' :: newline (depth + 1) ++ t ++ behindItem closing depth ts

theorem bracketed_cons (opening closing : Char) (depth : Nat) (t : Text) (ts : List Text) :
    bracketed opening closing depth (t :: ts) =
      opening :: newline (depth + 1) ++ t ++ behindItem closing depth ts := by
  have h : List.intercalate (',' :: newline (depth + 1)) (t :: ts) ++ (newline depth ++ [closing]) =
      t ++ behindItem closing depth ts := by
    induction ts generalizing t
    case nil => rw [List.intercalate_singleton, behindItem]
    case cons t' ts hi =>
      rw [List.intercalate_cons_cons, List.append_assoc, hi, behindItem]
      simp
  simp [bracketed, ← h]

theorem noDigit_behindItem (closing : Char) (depth : Nat) (ts : List Text) (r : Text) :
    NoDigit (behindItem closing depth ts ++ r) := by
  cases ts <;> simp [behindItem, newline, NoDigit]

section Items

variable {α : Type} {write : α → Text} {as as' : List α}

theorem behindItem_append_inj (ha : ∀ a ∈ as, IsToldApart write a)
    (h : behindItem closing depth (as.map write) ++ r = behindItem closing depth (as'.map write) ++ r') :
    as = as' ∧ r = r' := by
  induction as generalizing as' <;> cases as'
  case nil.nil  => exact ⟨rfl, List.append_cancel_left h⟩
  case nil.cons => simp [behindItem, newline] at h
  case cons.nil => simp [behindItem, newline] at h
  case cons.cons a as hi a' as' =>
    obtain ⟨ha, has⟩ := List.forall_mem_cons.mp ha
    simp only [List.map_cons, behindItem, List.cons_append, List.append_assoc, List.cons.injEq, true_and,
      List.append_cancel_left_eq] at h
    obtain ⟨rfl, hs⟩ := ha (noDigit_behindItem _ _ _ _) (noDigit_behindItem _ _ _ _) h
    obtain ⟨rfl, hr⟩ := hi has hs
    exact ⟨rfl, hr⟩

theorem bracketed_append_inj (hc : closing ≠ '\n') (ha : ∀ a ∈ as, IsToldApart write a)
    (h : bracketed opening closing depth (as.map write) ++ r =
      bracketed opening closing depth (as'.map write) ++ r') : as = as' ∧ r = r' := by
  cases as <;> cases as'
  case nil.nil  => simpa [bracketed] using h
  case nil.cons => simp [bracketed, newline, hc] at h
  case cons.nil => simp [bracketed, newline, hc.symm] at h
  case cons.cons a as a' as' =>
    obtain ⟨ha, has⟩ := List.forall_mem_cons.mp ha
    simp only [List.map_cons, bracketed_cons, List.cons_append, List.append_assoc, List.cons.injEq, true_and,
      List.append_cancel_left_eq] at h
    obtain ⟨rfl, hs⟩ := ha (noDigit_behindItem _ _ _ _) (noDigit_behindItem _ _ _ _) h
    obtain ⟨rfl, hr⟩ := behindItem_append_inj has hs
    exact ⟨rfl, hr⟩

end Items

-- Values

def prettyMember (depth : Nat) (m : Text × Json) : Text :=
  quoted m.1 ++ [':', ' '] ++ m.2.pretty depth

theorem prettyItems_eq_map (depth : Nat) (js : List Json) :
    pretty.prettyItems depth js = js.map (pretty (depth + 1)) := by
  induction js
  case nil           => rfl
  case cons j js hi => rw [pretty.prettyItems, hi, List.map_cons]

theorem prettyMembers_eq_map (depth : Nat) (ms : List (Text × Json)) :
    pretty.prettyMembers depth ms = ms.map (prettyMember (depth + 1)) := by
  induction ms
  case nil          => rfl
  case cons m ms hi => rw [pretty.prettyMembers, hi, List.map_cons, prettyMember]

-- The character that a value of this kind starts with.
def opens : Json → Char → Bool
  | number _, c => c == '-' || c.isDigit
  | text _, c => c == '\x22'
  | array _, c => c == '['
  | object _, c => c == '\x7b'

theorem exists_pretty_eq (depth : Nat) (j : Json) : ∃ c s, j.pretty depth = c :: s ∧ j.opens c = true := by
  cases j
  case number n =>
    cases n
    case negSucc n => exact ⟨_, _, rfl, rfl⟩
    case ofNat n =>
      obtain ⟨c, s, hs⟩ := List.exists_cons_of_ne_nil (show Text.ofNat n ≠ [] from Nat.toDigits_ne_nil)
      have hc : c.isDigit = true := isDigit_of_mem_ofNat (hs ▸ List.mem_cons_self)
      exact ⟨c, s, hs, by rw [opens, hc, Bool.or_true]⟩
  case text t => exact ⟨_, _, rfl, rfl⟩
  case array items =>
    rw [pretty]
    cases pretty.prettyItems depth items <;> exact ⟨_, _, rfl, rfl⟩
  case object members =>
    rw [pretty]
    cases pretty.prettyMembers depth members <;> exact ⟨_, _, rfl, rfl⟩

theorem exists_opens_of_pretty_append_eq {j j' : Json} (h : j.pretty depth ++ r = j'.pretty depth ++ r') :
    ∃ c, j.opens c = true ∧ j'.opens c = true := by
  obtain ⟨c, s, hs, hc⟩ := exists_pretty_eq depth j
  obtain ⟨c', s', hs', hc'⟩ := exists_pretty_eq depth j'
  rw [hs, hs'] at h
  exact ⟨c, hc, (List.cons.inj h).left ▸ hc'⟩

theorem isToldApart_prettyMember {m : Text × Json} (h : IsToldApart (pretty depth) m.2) :
    IsToldApart (prettyMember depth) m := by
  intro m' r r' hr hr' he
  simp only [prettyMember, List.append_assoc] at he
  obtain ⟨hk, he⟩ := quoted_append_inj he
  obtain ⟨hj, rfl⟩ := h hr hr' (List.append_cancel_left he)
  exact ⟨Prod.ext hk hj, rfl⟩

section Kinds

variable {items : List Json} {members : List (Text × Json)}

theorem isToldApart_number (n : Int) : IsToldApart (pretty depth) (.number n) := by
  intro j r r' hr hr' h
  obtain ⟨c, hc, hc'⟩ := exists_opens_of_pretty_append_eq h
  cases j
  case number n' =>
    obtain ⟨rfl, he⟩ := isToldApart_ofInt n hr hr' h
    exact ⟨rfl, he⟩
  all_goals simp_all [opens]

theorem isToldApart_text (t : Text) : IsToldApart (pretty depth) (.text t) := by
  intro j r r' _ _ h
  obtain ⟨c, hc, hc'⟩ := exists_opens_of_pretty_append_eq h
  cases j
  case text t' =>
    obtain ⟨rfl, he⟩ := quoted_append_inj h
    exact ⟨rfl, he⟩
  all_goals simp_all [opens]

theorem isToldApart_array (hi : ∀ i ∈ items, IsToldApart (pretty (depth + 1)) i) :
    IsToldApart (pretty depth) (.array items) := by
  intro j r r' _ _ h
  obtain ⟨c, hc, hc'⟩ := exists_opens_of_pretty_append_eq h
  cases j
  case array items' =>
    rw [pretty, pretty, prettyItems_eq_map, prettyItems_eq_map] at h
    obtain ⟨rfl, he⟩ := bracketed_append_inj (by decide) hi h
    exact ⟨rfl, he⟩
  all_goals simp_all [opens]

theorem isToldApart_object (hm : ∀ m ∈ members, IsToldApart (pretty (depth + 1)) m.2) :
    IsToldApart (pretty depth) (.object members) := by
  intro j r r' _ _ h
  obtain ⟨c, hc, hc'⟩ := exists_opens_of_pretty_append_eq h
  cases j
  case object members' =>
    have hm : ∀ m ∈ members, IsToldApart (prettyMember (depth + 1)) m :=
      fun m h => isToldApart_prettyMember (hm m h)
    rw [pretty, pretty, prettyMembers_eq_map, prettyMembers_eq_map] at h
    obtain ⟨rfl, he⟩ := bracketed_append_inj (by decide) hm h
    exact ⟨rfl, he⟩
  all_goals simp_all [opens]

end Kinds

theorem isToldApart_pretty (depth : Nat) : (j : Json) → IsToldApart (pretty depth) j
  | number n       => isToldApart_number n
  | text t         => isToldApart_text t
  | array items    => isToldApart_array fun i _ => isToldApart_pretty (depth + 1) i
  | object members => isToldApart_object fun m _ => isToldApart_pretty (depth + 1) m.2
termination_by j => sizeOf j
decreasing_by
  · have hi := List.sizeOf_lt_of_mem ‹i ∈ items›
    rw [array.sizeOf_spec]
    omega
  · have hm := List.sizeOf_lt_of_mem ‹m ∈ members›
    have hs : sizeOf m = 1 + sizeOf m.1 + sizeOf m.2 := rfl
    rw [object.sizeOf_spec]
    omega

theorem pretty_inj {j j' : Json} (h : j.pretty depth = j'.pretty depth) : j = j' := by
  have hn : NoDigit [] := nofun
  exact (isToldApart_pretty depth j hn hn (congrArg (· ++ []) h)).left

end GherkinView.Json
