import GherkinView.Proofs.Sentence.Openings
import GherkinView.Proofs.Sentence.Seams
import GherkinView.Proofs.Sentence.Splicing

namespace GherkinView

namespace Text

variable {t u : Text}

def quotes (t : Text) : Text :=
  t.filter isQuote

theorem quotes_append (t u : Text) : quotes (t ++ u) = quotes t ++ quotes u :=
  List.filter_append ..

theorem quotes_eq_nil_iff : quotes t = [] ↔ Unquoted t := by
  simp [quotes, Unquoted]

theorem mem_quotes {c : Char} : c ∈ quotes t ↔ c ∈ t ∧ isQuote c = true :=
  List.mem_filter

theorem count_quotes {c : Char} (h : isQuote c = true) (t : Text) : (quotes t).count c = t.count c :=
  List.count_filter h

end Text

namespace Sentence

open Text

section Selectors

variable {k : SelectorKind} {c : Char} {w x y : Text} {admits : Bool}

theorem not_admitsSelector_of_isWord (h : isWord c = true) : admitsSelector c = false := by
  rw [admitsSelector, Bool.or_eq_false_iff]
  constructor
  case left =>
    by_contra hb
    simp [not_isWord_of_isBlank (by simpa using hb)] at h
  case right =>
    rw [beq_eq_false_iff_ne]
    rintro rfl
    exact absurd h (by decide)

theorem describeFrom_cons_of_ne (h : c ≠ k.mark) (admits : Bool) (r : Text) :
    describeFrom k admits (c :: r) = c :: describeFrom k (admitsSelector c) r := by
  simp [describeFrom, h]

-- Whether a selector may stand behind the text, which has `admits` to say so at its start.
def admitsBehind (admits : Bool) (x : Text) : Bool :=
  x.getLast?.elim admits admitsSelector

theorem admitsBehind_cons (admits : Bool) (c : Char) (x : Text) :
    admitsBehind admits (c :: x) = admitsBehind (admitsSelector c) x := by
  rw [admitsBehind, List.getLast?_cons, admitsBehind]
  cases x.getLast? <;> rfl

-- Where no selector starts in the first part of a text, that part stays.
theorem describeFrom_append (h : ∀ x₁ x₂, x = x₁ ++ k.mark :: x₂ → admitsBehind admits x₁ = true →
    ∀ c ∈ (x₂ ++ y).head?, k.opens c = false) :
    describeFrom k admits (x ++ y) = x ++ describeFrom k (admitsBehind admits x) y := by
  induction x generalizing admits
  case nil => rfl
  case cons c x hi =>
    have hc : (admits && c == k.mark && (x ++ y).head?.any k.opens) = false := by
      by_contra hc
      simp only [Bool.not_eq_false, Bool.and_eq_true, beq_iff_eq, Option.any_eq_true] at hc
      obtain ⟨⟨ha, rfl⟩, d, hd, ho⟩ := hc
      rw [h [] x rfl ha d hd] at ho
      contradiction
    have hx : describeFrom k (admitsSelector c) (x ++ y) =
        x ++ describeFrom k (admitsBehind (admitsSelector c) x) y :=
      hi fun x₁ x₂ he ha => h (c :: x₁) x₂ (he ▸ rfl) (by rw [admitsBehind_cons, ha])
    rw [List.cons_append, describeFrom, hc, if_neg Bool.false_ne_true, admitsBehind_cons, hx]
    rfl

theorem describeFrom_append_of_not_mem (h : k.mark ∉ x) (admits : Bool) (y : Text) :
    describeFrom k admits (x ++ y) = x ++ describeFrom k (admitsBehind admits x) y := by
  refine describeFrom_append ?_
  rintro x₁ x₂ rfl
  simp at h

-- A word is no selector, and none starts right behind it.
theorem describeFrom_word_append (hk : isWord k.mark = false) (hw : ∀ c ∈ w, isWord c = true) (hn : w ≠ [])
    (admits : Bool) (r : Text) : describeFrom k admits (w ++ r) = w ++ describeFrom k false r := by
  have hm : k.mark ∉ w := by
    intro hm
    have := hw _ hm
    rw [hk] at this
    contradiction
  have ha : admitsBehind admits w = false := by
    rw [admitsBehind, List.getLast?_eq_some_getLast hn]
    exact not_admitsSelector_of_isWord (hw _ (List.getLast_mem hn))
  rw [describeFrom_append_of_not_mem hm, ha]

theorem describe_word_append_quote (hk : isWord k.mark = false) (hb : k.mark ≠ ' ') (hq : k.mark ≠ '\x22')
    (hw : ∀ c ∈ w, isWord c = true) (hn : w ≠ []) (r : Text) :
    describe k (w ++ ' ' :: '\x22' :: r) = w ++ ' ' :: '\x22' :: describe k r := by
  have ha : admitsSelector '\x22' = true := by decide
  rw [describe, describeFrom_word_append hk hw hn, describeFrom_cons_of_ne hb.symm,
    describeFrom_cons_of_ne hq.symm, ha, describe]

theorem describeSelectors_word_append_quote (hw : ∀ c ∈ w, isWord c = true) (hn : w ≠ []) (r : Text) :
    describeSelectors (w ++ ' ' :: '\x22' :: r) = w ++ ' ' :: '\x22' :: describeSelectors r := by
  rw [describeSelectors, describe_word_append_quote (by decide) (by decide) (by decide) hw hn,
    describe_word_append_quote (by decide) (by decide) (by decide) hw hn, describeSelectors]

theorem head?_describeFrom (k : SelectorKind) (t : Text) : (describeFrom k false t).head? = t.head? := by
  cases t <;> simp [describeFrom]

-- The first word stays, with what stands behind it, unless a selector stands in its place.
theorem word_describe_cases (hk : isWord k.mark = false) (t : Text) :
    word (describe k t) = article ∨
    word (describe k t) = word t ∧ (afterWord (describe k t)).head? = (afterWord t).head? := by
  have ht := word_append_afterWord t
  by_cases hn : word t = []
  case neg =>
    have hd : describe k t = word t ++ describeFrom k false (afterWord t) := by
      conv_lhs => rw [← ht, describe, describeFrom_word_append hk (fun _ => isWord_of_mem_word) hn]
    have hr : ∀ c ∈ (describeFrom k false (afterWord t)).head?, isWord c = false := by
      rw [head?_describeFrom]
      exact fun _ => not_isWord_of_head?_afterWord
    rw [hd, word_append (fun _ => isWord_of_mem_word) hr, afterWord_append (fun _ => isWord_of_mem_word) hr,
      head?_describeFrom]
    exact .inr ⟨rfl, rfl⟩
  case pos =>
    cases t
    case nil => exact .inr ⟨rfl, rfl⟩
    case cons c r =>
      have hc : isWord c = false := by simpa [word] using hn
      rw [describe, describeFrom]
      split
      case isFalse => exact .inr (by simp [word, afterWord, hc])
      case isTrue =>
        refine .inl ?_
        rw [SelectorKind.phrase, List.append_assoc]
        exact word_append (w := article) (List.all_eq_true.mp (by decide)) (by simp; decide)

theorem word_describeSelectors_cases (t : Text) :
    word (describeSelectors t) = article ∨
    word (describeSelectors t) = word t ∧ (afterWord (describeSelectors t)).head? = (afterWord t).head? := by
  rw [describeSelectors]
  obtain he | ⟨he, hr⟩ := word_describe_cases (k := .element) (by decide) (describe .field t)
  case inl => exact .inl he
  case inr =>
    rw [he, hr]
    exact word_describe_cases (by decide) t

end Selectors

-- The sentence before its opening is told in full.
def described (label code : Text) : Text :=
  describeSelectors (splice (stripQuotes label) code)

-- No opening has a word to go on with where a quote mark stands behind the verb.
theorem object?_word_append_quote {o : Opening} (ho : o.IsVerbal) {w : Text}
    (hw : ∀ c ∈ w, isWord c = true) (r : Text) : o.object? (w ++ ' ' :: '\x22' :: r) = none := by
  rw [Option.eq_none_iff_forall_ne_some]
  intro r' h
  obtain ⟨_, ha, hr⟩ := ho.object?_eq_some_iff.mp h
  rw [afterWord_append hw (by simp; decide)] at ha
  obtain rfl := (List.cons.inj ha).right
  exact hr (List.takeWhile_cons_of_neg (by decide))

-- The label starts with a word, without its quote marks, and the code has a value.
structure IsToldWithValue (label code : Text) : Prop where
  word : ∃ c ∈ (stripQuotes label).head?, isWord c = true
  value : ∃ v ∈ literals (body code), v ≠ []

variable {label code : Text}

theorem exists_value?_iff : (∃ v, value? code = some v) ↔ ∃ v ∈ literals (body code), v ≠ [] := by
  rw [← Option.isSome_iff_exists, value?, List.find?_isSome]
  simp

theorem IsToldWithValue.exists_splice_eq (h : IsToldWithValue label code) :
    ∃ v, Unquoted v ∧ splice (stripQuotes label) code =
      Text.word (stripQuotes label) ++ ' ' :: '\x22' :: (v ++ '\x22' :: afterWord (stripQuotes label)) := by
  obtain ⟨v, hv⟩ := exists_value?_iff.mpr h.value
  have hm : v ∈ literals (body code) := List.mem_of_find?_eq_some hv
  refine ⟨v, fun c hc => (mem_of_mem_literals hm hc).right, ?_⟩
  rw [splice, hv]
  simp [insertValue, word_ne_nil_iff.mpr h.word]

-- The value stands in quote marks behind the first word, so that no opening finds a word there.
theorem IsToldWithValue.exists_described_eq (h : IsToldWithValue label code) :
    ∃ r, described label code = Text.word (stripQuotes label) ++ ' ' :: '\x22' :: r := by
  obtain ⟨v, _, he⟩ := h.exists_splice_eq
  have hn := word_ne_nil_iff.mpr h.word
  rw [described, he, describeSelectors_word_append_quote (fun _ => isWord_of_mem_word) hn]
  exact ⟨_, rfl⟩

theorem IsToldWithValue.object?_eq_none (h : IsToldWithValue label code) :
    ∀ o ∈ openings, o.object? (described label code) = none := by
  intro o ho
  obtain ⟨r, he⟩ := h.exists_described_eq
  rw [he]
  exact object?_word_append_quote (isVerbal_of_mem_openings o ho) (fun _ => isWord_of_mem_word) r

theorem IsToldWithValue.tell_eq (h : IsToldWithValue label code) : tell label code = described label code :=
  foldl_apply_eq_self h.object?_eq_none

theorem IsToldWithValue.not_takesPart (h : IsToldWithValue label code) (o : Opening) :
    ¬o.TakesPart (described label code) := by
  intro ho
  obtain ⟨r, hr, _⟩ := ho.exists_object?
  rw [h.object?_eq_none o ho.mem_openings] at hr
  contradiction

theorem splice_of_not_told (h : ¬IsToldWithValue label code) :
    splice (stripQuotes label) code = stripQuotes label := by
  cases hv : value? code
  case none => rw [splice, hv]
  case some v =>
    have hn : word (stripQuotes label) = [] := by
      by_contra hn
      exact h ⟨word_ne_nil_iff.mp hn, exists_value?_iff.mp ⟨v, hv⟩⟩
    rw [splice, hv]
    simp [insertValue, hn]

theorem quotes_seams (t : Text) : quotes (seams t) = quotes t := by
  rw [quotes, seams, List.filter_filter, quotes]
  congr 1
  funext c
  cases h : isQuote c <;> simp [isSeam, h]

-- Neither selectors nor openings touch a quote mark.
theorem quotes_tell (label code : Text) :
    quotes (tell label code) = quotes (splice (stripQuotes label) code) := by
  rw [← quotes_seams, tell, seams_applyOpenings, seams_describeSelectors, quotes_seams]

theorem IsToldWithValue.quotes_tell (h : IsToldWithValue label code) :
    quotes (tell label code) = ['\x22', '\x22'] := by
  have hl := unquoted_stripQuotes label
  have hw : quotes (Text.word (stripQuotes label)) = [] :=
    quotes_eq_nil_iff.mpr (hl.mono (List.takeWhile_subset _))
  have ha : quotes (afterWord (stripQuotes label)) = [] :=
    quotes_eq_nil_iff.mpr (hl.mono (List.dropWhile_subset _))
  obtain ⟨v, hv, he⟩ := h.exists_splice_eq
  have hb : quotes [' ', '\x22'] = ['\x22'] := by decide
  have hq : quotes ['\x22'] = ['\x22'] := by decide
  rw [Sentence.quotes_tell, he, List.append_cons, List.append_cons _ '\x22', List.append_cons v]
  simp only [quotes_append, hw, ha, quotes_eq_nil_iff.mpr hv, hq]
  decide

theorem quotes_tell_of_not_told (h : ¬IsToldWithValue label code) : quotes (tell label code) = [] := by
  rw [quotes_tell, splice_of_not_told h, quotes_eq_nil_iff]
  exact unquoted_stripQuotes label

theorem quotes_tell_cases (label code : Text) :
    quotes (tell label code) = [] ∨ quotes (tell label code) = ['\x22', '\x22'] := by
  by_cases h : IsToldWithValue label code
  case pos => exact .inr h.quotes_tell
  case neg => exact .inl (quotes_tell_of_not_told h)

-- A sentence has two double quotes if it is told with a value, and else no quote marks at all; if it is,
-- the first one stands behind its first word, and openings have no part in it.
theorem tell_quotes (label code : Text) :
    ('\x27' ∉ tell label code ∧ '\x60' ∉ tell label code) ∧
    ((tell label code).count '\x22' = 0 ∨ (tell label code).count '\x22' = 2) ∧
    ((tell label code).count '\x22' = 2 ↔ IsToldWithValue label code) ∧
    (IsToldWithValue label code →
      (∃ w rest, IsFirstWord (stripQuotes label) w rest ∧ w ++ " \x22".toList <+: tell label code) ∧
      (∀ o : Opening, ¬o.TakesPart (described label code)) ∧ tell label code = described label code) := by
  have hc := count_quotes (c := '\x22') (by decide) (tell label code)
  have hn {c} (hq : isQuote c = true) (hd : c ≠ '\x22') : c ∉ tell label code := by
    intro hm
    have hm := mem_quotes.mpr ⟨hm, hq⟩
    obtain h | h := quotes_tell_cases label code <;> simp [h, hd] at hm
  refine ⟨⟨hn (by decide) (by decide), hn (by decide) (by decide)⟩, ?counts, ⟨?two, ?told⟩, fun h => ⟨?start,
    h.not_takesPart, h.tell_eq⟩⟩
  case counts => obtain h | h := quotes_tell_cases label code <;> simp [← hc, h]
  case two =>
    intro h2
    by_contra h
    rw [← hc, quotes_tell_of_not_told h] at h2
    contradiction
  case told =>
    intro h
    rw [← hc, h.quotes_tell]
    decide
  case start =>
    obtain ⟨r, he⟩ := h.exists_described_eq
    refine ⟨_, _, isFirstWord_iff.mpr ⟨word_ne_nil_iff.mpr h.word, rfl, rfl⟩, ?_⟩
    rw [h.tell_eq, he]
    exact ⟨r, by simp⟩

-- The value keeps the verb from being told in full, but not the selector in it from being put into words.
example : tell "click \x60send\x60".toList "\x7b find(\x27#form\x27) \x7d".toList =
    "click \x22the form field\x22 send".toList := by
  decide +kernel

end Sentence
end GherkinView
