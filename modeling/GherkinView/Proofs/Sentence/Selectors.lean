import GherkinView.Proofs.Sentence.Shape

namespace GherkinView.Sentence

open Text

-- A selector of the kind, which goes on as long as there are characters of a name.
structure IsSelector (k : SelectorKind) (t before name behind : Text) : Prop where
  eq : t = before ++ k.mark :: (name ++ behind)
  admitted : ∀ c ∈ before.getLast?, isBlank c = true ∨ c = '\x22'
  opens : ∃ c ∈ name.head?, k.opens c = true
  letters : ∀ c ∈ name, isNameChar c = true
  longest : ∀ c ∈ behind.head?, isNameChar c = false

-- No other one of its kind starts further in front.
structure IsFirstSelector (k : SelectorKind) (t before name behind : Text) : Prop
    extends IsSelector k t before name behind where
  first : ∀ {before' name' behind'}, IsSelector k t before' name' behind' → before.length ≤ before'.length

def HasSelector (k : SelectorKind) (t : Text) : Prop :=
  ∃ before name behind, IsSelector k t before name behind

-- The two kinds, in one order or the other.
inductive Both : SelectorKind → SelectorKind → Prop
  | fieldFirst : Both .field .element
  | elementFirst : Both .element .field

-- The text with its first selectors in words.
inductive Reworded (t : Text) : Text → Prop
  | none : (∀ k k', Both k k' → ¬HasSelector k t) → Reworded t t
  | one {k k' before name behind} : Both k k' → ¬HasSelector k' t →
    IsFirstSelector k t before name behind → Reworded t (before ++ (k.phrase name ++ behind))
  | two {k k' before name between name' behind} : Both k k' →
    IsFirstSelector k t before name (between ++ k'.mark :: (name' ++ behind)) →
    IsFirstSelector k' t (before ++ k.mark :: (name ++ between)) name' behind →
    Reworded t (before ++ (k.phrase name ++ (between ++ (k'.phrase name' ++ behind))))

-- Marks are no part of names or of words that are put in, and nothing may stand behind them.
structure SelectorKind.IsPlain (k : SelectorKind) : Prop where
  mark : isNameChar k.mark = false
  admits : admitsSelector k.mark = false
  opens : ∀ c, k.opens c = true → isNameChar c = true
  noun : ∀ c ∈ k.noun, isNameChar c = true
  noun_ne : k.noun ≠ []

theorem Both.symm {k k' : SelectorKind} : Both k k' → Both k' k
  | fieldFirst => elementFirst
  | elementFirst => fieldFirst

theorem Both.mark_ne {k k' : SelectorKind} (h : Both k k') : k.mark ≠ k'.mark := by
  cases h <;> decide

theorem Both.isPlain {k k' : SelectorKind} : Both k k' → k.IsPlain
  | fieldFirst => ⟨by decide, by decide, fun _ h => h, List.all_eq_true.mp (by decide), by decide⟩
  | elementFirst => by
    refine ⟨by decide, by decide, fun c h => ?_, List.all_eq_true.mp (by decide), by decide⟩
    obtain h | h := Bool.or_eq_true_iff.mp h
    · simp [isNameChar, isWord_of_isAlpha h]
    · rw [beq_iff_eq.mp h]
      decide

section Classes

variable {c : Char}

theorem admitsSelector_iff : admitsSelector c = true ↔ isBlank c = true ∨ c = '\x22' := by
  simp [admitsSelector]

theorem not_admitsSelector_of_isNameChar (h : isNameChar c = true) : admitsSelector c = false := by
  obtain h | h := Bool.or_eq_true_iff.mp h
  · exact not_admitsSelector_of_isWord h
  · rw [beq_iff_eq.mp h]
    decide

theorem not_isNameChar_of_admitsSelector (h : admitsSelector c = true) : isNameChar c = false := by
  by_contra hn
  rw [not_admitsSelector_of_isNameChar (by simpa using hn)] at h
  contradiction

end Classes

section Kind

variable {k : SelectorKind} {t x y before name behind : Text} {admits : Bool}

theorem admitsBehind_of_isNameChar (hx : ∀ c ∈ x, isNameChar c = true) (hn : x ≠ []) :
    admitsBehind admits x = false := by
  rw [admitsBehind, List.getLast?_eq_some_getLast hn]
  exact not_admitsSelector_of_isNameChar (hx _ (List.getLast_mem hn))

theorem admitsBehind_eq_true (h : ∀ c ∈ x.getLast?, isBlank c = true ∨ c = '\x22') : admitsBehind true x = true := by
  rw [admitsBehind]
  cases hx : x.getLast?
  case none   => rfl
  case some c => exact admitsSelector_iff.mpr (h c hx)

theorem takeWhile_append_of_longest (hl : ∀ c ∈ name, isNameChar c = true)
    (hb : ∀ c ∈ behind.head?, isNameChar c = false) : (name ++ behind).takeWhile isNameChar = name := by
  rw [List.takeWhile_append_of_pos hl]
  cases behind
  case nil      => rw [List.takeWhile_nil, List.append_nil]
  case cons d b => simp [hb d rfl]

theorem dropWhile_append_of_longest (hl : ∀ c ∈ name, isNameChar c = true)
    (hb : ∀ c ∈ behind.head?, isNameChar c = false) : (name ++ behind).dropWhile isNameChar = behind := by
  have := List.takeWhile_append_dropWhile (p := isNameChar) (l := name ++ behind)
  rwa [takeWhile_append_of_longest hl hb, List.append_cancel_left_eq] at this

theorem describeFrom_selector (ho : ∃ c ∈ name.head?, k.opens c = true) (hl : ∀ c ∈ name, isNameChar c = true)
    (hb : ∀ c ∈ behind.head?, isNameChar c = false) :
    describeFrom k true (k.mark :: (name ++ behind)) = k.phrase name ++ behind := by
  obtain ⟨c, hc, ho⟩ := ho
  obtain ⟨r, rfl⟩ := List.head?_eq_some_iff.mp (Option.mem_def.mp hc)
  have ht := takeWhile_append_of_longest hl hb
  have hd := dropWhile_append_of_longest hl hb
  rw [describeFrom, ht, hd]
  simp [ho]

-- A mark with an opening letter behind it starts a selector.
theorem exists_isSelector (hk : k.IsPlain) (hb : admitsBehind true x = true) {c : Char} (hc : c ∈ y.head?)
    (ho : k.opens c = true) : ∃ name behind, IsSelector k (x ++ k.mark :: y) x name behind := by
  refine ⟨y.takeWhile isNameChar, y.dropWhile isNameChar, ?eq, ?admitted, ?opens, ?letters, ?longest⟩
  case eq => rw [List.takeWhile_append_dropWhile]
  case admitted =>
    intro d hd
    rw [admitsBehind, Option.mem_def.mp hd] at hb
    exact admitsSelector_iff.mp hb
  case opens =>
    obtain ⟨r, rfl⟩ := List.head?_eq_some_iff.mp (Option.mem_def.mp hc)
    exact ⟨c, by simp [hk.opens c ho], ho⟩
  case letters => exact fun d => List.mem_takeWhile_imp
  case longest =>
    intro d hd
    have := List.head?_dropWhile_not isNameChar y
    rwa [Option.mem_def.mp hd] at this

theorem describe_append_of_first (hk : k.IsPlain)
    (h : ∀ {before name behind}, IsSelector k (x ++ y) before name behind → x.length ≤ before.length) :
    describe k (x ++ y) = x ++ describeFrom k (admitsBehind true x) y := by
  refine describeFrom_append ?_
  rintro x₁ x₂ rfl ha c hc
  by_contra ho
  obtain ⟨name, behind, hs⟩ := exists_isSelector hk ha hc (by simpa using ho)
  have hs : IsSelector k (x₁ ++ k.mark :: x₂ ++ y) x₁ name behind := by simpa using hs
  have := h hs
  simp at this

theorem describe_of_not_hasSelector (hk : k.IsPlain) (h : ¬HasSelector k t) : describe k t = t := by
  have := describe_append_of_first (x := t) (y := []) hk fun hs => absurd ⟨_, _, _, by simpa using hs⟩ h
  simpa [describeFrom] using this

theorem IsFirstSelector.describe_eq (hk : k.IsPlain) (h : IsFirstSelector k t before name behind) :
    describe k t = before ++ (k.phrase name ++ behind) := by
  rw [h.eq, describe_append_of_first hk fun hs => h.first (h.eq ▸ hs), admitsBehind_eq_true h.admitted,
    describeFrom_selector h.opens h.letters h.longest]

theorem HasSelector.exists_first (h : HasSelector k t) :
    ∃ before name behind, IsFirstSelector k t before name behind := by
  obtain ⟨before, name, behind, hs⟩ := h
  induction hn : before.length using Nat.strong_induction_on generalizing before name behind
  case h n hi =>
    by_cases hf : ∃ before' name' behind', IsSelector k t before' name' behind' ∧ before'.length < n
    case pos =>
      obtain ⟨before', name', behind', hs', hl⟩ := hf
      exact hi _ hl before' name' behind' hs' rfl
    case neg =>
      push Not at hf
      exact ⟨before, name, behind, hs, fun hs' => hn ▸ hf _ _ _ hs'⟩

end Kind

section Kinds

variable {k k' : SelectorKind} {t x y before name between name' behind before' behind' : Text} {admits : Bool}

theorem admitsBehind_append (x : Text) (hy : ∀ c ∈ y, isNameChar c = true) (hn : y ≠ []) :
    admitsBehind admits (x ++ y) = false := by
  have h : admitsBehind admits y = false := admitsBehind_of_isNameChar hy hn
  rw [← h, admitsBehind, admitsBehind, List.getLast?_append, List.getLast?_eq_some_getLast hn, Option.some_or]

namespace SelectorKind.IsPlain

theorem mark_not_mem (hk : k.IsPlain) (hx : ∀ c ∈ x, isNameChar c = true) : k.mark ∉ x := by
  intro hm
  have := hx _ hm
  rw [hk.mark] at this
  contradiction

theorem mark_not_mem_phrase (hk : k.IsPlain) (hk' : k'.IsPlain) (hn : ∀ c ∈ name, isNameChar c = true) :
    k.mark ∉ k'.phrase name := by
  have ha : k.mark ∉ article := hk.mark_not_mem (List.all_eq_true.mp (by decide))
  have hs : k.mark ≠ ' ' := by
    intro h
    have := hk.admits
    rw [h] at this
    contradiction
  have he : k'.phrase name = article ++ [' '] ++ name ++ [' '] ++ k'.noun := by
    simp [phrase, article]
  simp only [he, List.mem_append, List.mem_singleton, not_or]
  exact ⟨⟨⟨⟨ha, hs⟩, hk.mark_not_mem hn⟩, hs⟩, hk.mark_not_mem hk'.noun⟩

end SelectorKind.IsPlain

-- What was put in for a selector is passed over.
theorem describeFrom_phrase_append (hk : k.IsPlain) (hk' : k'.IsPlain) (hn : ∀ c ∈ name, isNameChar c = true)
    (admits : Bool) (y : Text) :
    describeFrom k admits (k'.phrase name ++ y) = k'.phrase name ++ describeFrom k false y := by
  have he : k'.phrase name = ("the ".toList ++ name ++ [' ']) ++ k'.noun := by
    simp [SelectorKind.phrase]
  rw [describeFrom_append_of_not_mem (hk.mark_not_mem_phrase hk' hn)]
  conv_lhs => rw [he, admitsBehind_append _ hk'.noun hk'.noun_ne, ← he]

-- So is a selector of the other kind.
theorem describeFrom_selector_append (h : Both k k') (hn : ∀ c ∈ name, isNameChar c = true) (hne : name ≠ [])
    (admits : Bool) (y : Text) :
    describeFrom k admits (k'.mark :: (name ++ y)) = k'.mark :: (name ++ describeFrom k false y) := by
  have hm : k.mark ∉ k'.mark :: name := List.not_mem_cons_of_ne_of_not_mem h.mark_ne (h.isPlain.mark_not_mem hn)
  have := describeFrom_append_of_not_mem hm admits y
  rw [← List.singleton_append, admitsBehind_append _ hn hne] at this
  exact this

-- A selector starts with `c`, if `admits` says that it may.
def Starts (k : SelectorKind) (admits : Bool) (c : Char) (r : Text) : Prop :=
  admits = true ∧ c = k.mark ∧ ∃ d ∈ r.head?, k.opens d = true

theorem describeFrom_cons {c : Char} (h : ¬Starts k admits c y) :
    describeFrom k admits (c :: y) = c :: describeFrom k (admitsSelector c) y := by
  rw [describeFrom, if_neg]
  simpa [Starts, Option.any_eq_true, and_assoc] using h

theorem describeFrom_comm_of_starts (h : Both k k') {c : Char} (hc : Starts k admits c y) :
    describeFrom k' admits (describeFrom k admits (c :: y)) =
      describeFrom k admits (describeFrom k' admits (c :: y)) := by
  obtain ⟨rfl, rfl, d, hd, ho⟩ := hc
  obtain ⟨name, behind, hs⟩ := exists_isSelector (x := []) h.isPlain rfl hd ho
  have hn : name ≠ [] := by
    obtain ⟨_, hm, _⟩ := hs.opens
    rintro rfl
    contradiction
  have hb : ∀ c ∈ (describeFrom k' false behind).head?, isNameChar c = false := by
    rw [head?_describeFrom]
    exact hs.longest
  have he : k.mark :: y = k.mark :: (name ++ behind) := hs.eq
  calc
    describeFrom k' true (describeFrom k true (k.mark :: y)) = k.phrase name ++ describeFrom k' false behind := by
      rw [he, describeFrom_selector hs.opens hs.letters hs.longest,
        describeFrom_phrase_append h.symm.isPlain h.isPlain hs.letters]
    _ = describeFrom k true (k.mark :: (name ++ describeFrom k' false behind)) :=
      (describeFrom_selector hs.opens hs.letters hb).symm
    _ = describeFrom k true (describeFrom k' true (k.mark :: y)) := by
      rw [he, describeFrom_selector_append h.symm hs.letters hn]

-- Behind its mark no selector of the other kind may stand, so what comes there stays the same.
theorem describeFrom_cons_describeFrom (hk : k.IsPlain) {c : Char} (h : ¬Starts k admits c y) :
    describeFrom k admits (c :: describeFrom k' (admitsSelector c) y) =
      c :: describeFrom k (admitsSelector c) (describeFrom k' (admitsSelector c) y) := by
  refine describeFrom_cons ?_
  rintro ⟨ha, rfl, ho⟩
  rw [hk.admits, head?_describeFrom] at ho
  exact h ⟨ha, rfl, ho⟩

-- It is all the same which kind comes first.
theorem describeFrom_comm (h : Both k k') (admits : Bool) (t : Text) :
    describeFrom k' admits (describeFrom k admits t) = describeFrom k admits (describeFrom k' admits t) := by
  induction t generalizing admits
  case nil => rfl
  case cons c r hi =>
    by_cases hc : Starts k admits c r
    case pos => exact describeFrom_comm_of_starts h hc
    case neg =>
      by_cases hc' : Starts k' admits c r
      case pos => exact (describeFrom_comm_of_starts h.symm hc').symm
      case neg =>
        rw [describeFrom_cons hc, describeFrom_cons hc', describeFrom_cons_describeFrom h.symm.isPlain hc',
          describeFrom_cons_describeFrom h.isPlain hc, hi]

theorem describeSelectors_eq (h : Both k k') (t : Text) : describeSelectors t = describe k' (describe k t) := by
  cases h
  case fieldFirst   => rfl
  case elementFirst => exact describeFrom_comm .fieldFirst true t

theorem IsSelector.name_ne_nil (h : IsSelector k t before name behind) : name ≠ [] := by
  obtain ⟨_, hm, _⟩ := h.opens
  rintro rfl
  contradiction

-- Where a text ends behind a selector, nothing may stand behind it.
theorem IsSelector.admitsBehind_eq_false (hk : k.IsPlain) (h : IsSelector k t before name behind) {u : Text}
    (hu : u <+: k.mark :: name) (hn : u ≠ []) : admitsBehind true (before ++ u) = false := by
  have hl : ∀ c ∈ k.mark :: name, admitsSelector c = false := by
    simp only [List.mem_cons, forall_eq_or_imp]
    exact ⟨hk.admits, fun c hc => not_admitsSelector_of_isNameChar (h.letters c hc)⟩
  rw [admitsBehind, List.getLast?_append, List.getLast?_eq_some_getLast hn]
  exact hl _ (hu.subset (List.getLast_mem hn))

-- A selector that starts in a part of a text which ends where one may stand is a selector of that part.
theorem IsSelector.within (hk : k.IsPlain) (h : IsSelector k (x ++ y) before name behind)
    (hl : before.length < x.length) (hx : admitsBehind true x = true) : HasSelector k x := by
  have hp : before ++ k.mark :: name <+: x ++ y := ⟨behind, by simp [h.eq]⟩
  obtain hp | hp := List.prefix_or_prefix_of_prefix hp (List.prefix_append x y)
  case inl =>
    obtain ⟨rest, rfl⟩ := hp
    have he : behind = rest ++ y := by simpa using h.eq.symm
    refine ⟨before, name, rest, by simp, h.admitted, h.opens, h.letters, fun c hc => ?_⟩
    obtain ⟨r, rfl⟩ := List.head?_eq_some_iff.mp (Option.mem_def.mp hc)
    exact h.longest c (by simp [he])
  case inr =>
    obtain ⟨u, rfl⟩ := List.prefix_of_prefix_length_le (List.prefix_append before _) hp hl.le
    have hn : u ≠ [] := by
      rintro rfl
      simp at hl
    rw [h.admitsBehind_eq_false hk ((List.prefix_append_right_inj before).mp hp) hn] at hx
    contradiction

theorem IsSelector.append (hk : k.IsPlain) (h : IsSelector k x before name behind) (hx : admitsBehind true x = true)
    (y : Text) : IsSelector k (x ++ y) before name (behind ++ y) := by
  refine ⟨by simp [h.eq], h.admitted, h.opens, h.letters, fun c hc => ?_⟩
  cases behind
  case cons d behind => exact h.longest c hc
  case nil =>
    rw [h.eq, List.append_nil, h.admitsBehind_eq_false hk List.prefix_rfl (List.cons_ne_nil _ _)] at hx
    contradiction

theorem IsFirstSelector.not_hasSelector (hk : k.IsPlain) (h : IsFirstSelector k (x ++ y) before name behind)
    (hl : x.length ≤ before.length) (hx : admitsBehind true x = true) : ¬HasSelector k x := by
  rintro ⟨before', name', behind', hs⟩
  have := h.first (hs.append hk hx y)
  have := congrArg List.length hs.eq
  simp at this
  omega

theorem IsFirstSelector.not_hasSelector_before (hk : k.IsPlain) (h : IsFirstSelector k t before name behind) :
    ¬HasSelector k before :=
  (h.eq ▸ h).not_hasSelector hk le_rfl (admitsBehind_eq_true h.admitted)

theorem IsFirstSelector.of_append (hk : k.IsPlain) {x : Text} (hx : admitsBehind true x = true)
    (h : IsFirstSelector k (x ++ y) before name (behind ++ y)) (he : x = before ++ k.mark :: (name ++ behind)) :
    IsFirstSelector k x before name behind where
  eq := he
  admitted := h.admitted
  opens := h.opens
  letters := h.letters
  longest c hc := h.longest c (List.mem_head?_append_of_mem_head? hc)
  first hs := h.first (hs.append hk hx y)

-- Where one may stand at the end of a text, one may stand behind the selector.
theorem IsSelector.admitted_append (h : IsSelector k t before name behind)
    (ha : ∀ c ∈ t.getLast?, isBlank c = true ∨ c = '\x22') (u : Text) :
    ∀ c ∈ (u ++ behind).getLast?, isBlank c = true ∨ c = '\x22' := by
  by_cases hb : behind = []
  case neg =>
    have hl : t.getLast? = behind.getLast? := by
      rw [h.eq, List.append_cons, ← List.append_assoc, List.getLast?_append_of_ne_nil _ hb]
    rwa [List.getLast?_append_of_ne_nil _ hb, ← hl]
  case pos =>
    have hn := h.name_ne_nil
    have hm : name.getLast hn ∈ t.getLast? := by
      rw [h.eq, hb, List.append_nil, List.append_cons, List.getLast?_append_of_ne_nil _ hn]
      exact List.getLast_mem_getLast? hn
    have := not_isNameChar_of_admitsSelector (admitsSelector_iff.mpr (ha _ hm))
    rw [h.letters _ (List.getLast_mem hn)] at this
    contradiction

theorem IsFirstSelector.inj (h : IsFirstSelector k t before name behind)
    (h' : IsFirstSelector k t before' name' behind') : before = before' ∧ name = name' := by
  have hl : before.length = before'.length := Nat.le_antisymm (h.first h'.toIsSelector) (h'.first h.toIsSelector)
  obtain ⟨hb, hr⟩ := List.append_inj (h.eq.symm.trans h'.eq) hl
  have hn := congrArg (List.takeWhile isNameChar) (List.cons.inj hr).right
  rw [takeWhile_append_of_longest h.letters h.longest, takeWhile_append_of_longest h'.letters h'.longest] at hn
  exact ⟨hb, hn⟩

theorem describe_append (hk : k.IsPlain) (hx : admitsBehind true x = true) (h : ¬HasSelector k x) (y : Text) :
    describe k (x ++ y) = x ++ describe k y := by
  rw [describe_append_of_first hk, hx, describe]
  intro before name behind hs
  by_contra hl
  exact h (hs.within hk (by omega) hx)

-- The one that comes second stands behind the name of the first.
theorem IsSelector.exists_between (h : Both k k') (hs : IsSelector k t before name behind)
    (hs' : IsSelector k' t before' name' behind') (hl : before.length ≤ before'.length) :
    ∃ between, before' = before ++ k.mark :: (name ++ between) ∧
      behind = between ++ k'.mark :: (name' ++ behind') := by
  have hp : before <+: t := ⟨_, hs.eq.symm⟩
  obtain ⟨u, rfl⟩ := List.prefix_of_prefix_length_le hp ⟨_, hs'.eq.symm⟩ hl
  have he := hs.eq.symm.trans hs'.eq
  rw [List.append_assoc, List.append_cancel_left_eq] at he
  cases u
  case nil => exact absurd (List.cons.inj he).left h.mark_ne
  case cons c u =>
    rw [List.cons_append] at he
    obtain ⟨rfl, hu⟩ := List.cons.inj he
    obtain ⟨between, rfl, hb⟩ | ⟨rest, rfl, hb⟩ := List.append_eq_append_iff.mp hu
    case inl => exact ⟨between, rfl, hb⟩
    case inr =>
      cases rest
      case nil => exact ⟨[], by simp, hb.symm⟩
      case cons c rest =>
        obtain ⟨rfl, _⟩ := List.cons.inj hb
        have := hs.letters k'.mark (by simp)
        rw [h.symm.isPlain.mark] at this
        contradiction

theorem describeSelectors_of_not_hasSelector (h : Both k k') (hk : ¬HasSelector k t) (hk' : ¬HasSelector k' t) :
    describeSelectors t = t := by
  rw [describeSelectors_eq h, describe_of_not_hasSelector h.isPlain hk, describe_of_not_hasSelector h.symm.isPlain hk']

theorem Reworded.eq_describeSelectors {u : Text} (h : Reworded t u) : u = describeSelectors t := by
  cases h
  case none h =>
    exact (describeSelectors_of_not_hasSelector .fieldFirst (h _ _ .fieldFirst) (h _ _ .elementFirst)).symm
  case one before name behind h hn hf =>
    rw [describeSelectors_eq h.symm, describe_of_not_hasSelector h.symm.isPlain hn, hf.describe_eq h.isPlain]
  case two k k' before name between name' behind h hf hf' =>
    have hb := admitsBehind_eq_true hf.admitted
    have hn : ¬HasSelector k' before :=
      (hf.eq ▸ hf').not_hasSelector h.symm.isPlain (by simp) hb
    have he : describeFrom k' false (between ++ k'.mark :: (name' ++ behind)) =
        between ++ (k'.phrase name' ++ behind) := by
      have he := hf'.describe_eq h.symm.isPlain
      rw [hf.eq, describe_append h.symm.isPlain hb hn, describe,
        describeFrom_selector_append h.symm hf.letters hf.name_ne_nil] at he
      simpa using he
    rw [describeSelectors_eq h, hf.describe_eq h.isPlain, describe_append h.symm.isPlain hb hn, describe,
      describeFrom_phrase_append h.symm.isPlain h.isPlain hf.letters, he]

theorem exists_reworded_of_first {x₁ n₁ y₁ x₂ n₂ y₂ : Text} (h : Both k k') (hf : IsFirstSelector k t x₁ n₁ y₁)
    (hf' : IsFirstSelector k' t x₂ n₂ y₂) (hl : x₁.length ≤ x₂.length) : ∃ u, Reworded t u := by
  obtain ⟨between, rfl, rfl⟩ := hf.exists_between h hf'.toIsSelector hl
  exact ⟨_, .two h hf hf'⟩

theorem exists_reworded (t : Text) : ∃ u, Reworded t u := by
  by_cases h : HasSelector .field t <;> by_cases h' : HasSelector .element t
  case pos =>
    obtain ⟨x, n, y, hf⟩ := h.exists_first
    obtain ⟨x', n', y', hf'⟩ := h'.exists_first
    obtain hl | hl := Nat.le_total x.length x'.length
    · exact exists_reworded_of_first .fieldFirst hf hf' hl
    · exact exists_reworded_of_first .elementFirst hf' hf hl
  case neg =>
    obtain ⟨x, n, y, hf⟩ := h.exists_first
    exact ⟨_, .one .fieldFirst h' hf⟩
  case pos =>
    obtain ⟨x, n, y, hf⟩ := h'.exists_first
    exact ⟨_, .one .elementFirst h hf⟩
  case neg =>
    refine ⟨t, .none ?_⟩
    rintro _ _ (_ | _)
    · exact h
    · exact h'

end Kinds

-- The first selector of each kind is put into words, wherever they stand, and nothing else is touched.
theorem describeSelectors_reworded (t : Text) :
    (∀ u, Reworded t u ↔ u = describeSelectors t) ∧
    describe .field (describe .element t) = describeSelectors t := by
  refine ⟨fun u => ⟨fun h => h.eq_describeSelectors, ?_⟩, (describeSelectors_eq .elementFirst t).symm⟩
  rintro rfl
  obtain ⟨u, h⟩ := exists_reworded t
  exact h.eq_describeSelectors ▸ h

-- The element stands in front of the field, and the mark within the address is none.
example : describeSelectors "open .menu and #login of a.b".toList =
    "open the menu element and the login field of a.b".toList := by
  decide +kernel

end GherkinView.Sentence
