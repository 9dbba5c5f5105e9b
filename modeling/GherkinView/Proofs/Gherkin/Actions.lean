import Mathlib.Data.List.Sections
import GherkinView.Proofs.Gherkin.Keywords
import GherkinView.Proofs.Sentence.Shape

namespace GherkinView

namespace Text

variable {t u v x : Text} {c : Char}

def beforeSpace (t : Text) : Text :=
  t.takeWhile (· != ' ')

def fromSpace (t : Text) : Text :=
  t.dropWhile (· != ' ')

theorem beforeSpace_append_fromSpace (t : Text) : beforeSpace t ++ fromSpace t = t :=
  List.takeWhile_append_dropWhile

theorem beforeSpace_append (h : ' ' ∉ t) (r : Text) : beforeSpace (t ++ ' ' :: r) = t := by
  rw [beforeSpace, List.takeWhile_append_of_pos, List.takeWhile_cons_of_neg (by simp), List.append_nil]
  intro c hc
  simpa using ne_of_mem_of_not_mem hc h

theorem beforeSpace_append_prefix_left (t r : Text) : beforeSpace (t ++ ' ' :: r) <+: t := by
  rw [beforeSpace, List.takeWhile_append]
  split
  case isTrue  => simp
  case isFalse => exact List.takeWhile_prefix _

theorem exists_fromSpace_eq (h : ' ' ∈ t) : ∃ r, fromSpace t = ' ' :: r := by
  cases hr : fromSpace t
  case nil => simpa using List.dropWhile_eq_nil_iff.mp hr _ h
  case cons c r =>
    have := List.head?_dropWhile_not (· != ' ') t
    rw [← fromSpace, hr] at this
    exact ⟨r, by simpa using this⟩

-- What stands in a text with a space in it stands in front of the space, up to a space of its own, or else
-- behind.
theorem beforeSpace_infix_or_behind (h : x <:+: u ++ ' ' :: v) : beforeSpace x <:+: u ∨ x <:+: ' ' :: v := by
  obtain h | h | ⟨s, p, rfl, hs, hp⟩ := List.infix_append_iff.mp h
  case inl     => exact .inl ((List.takeWhile_prefix _).isInfix.trans h)
  case inr.inl => exact .inr h
  case inr.inr =>
    refine .inl (List.IsInfix.trans (List.IsPrefix.isInfix ?_) hs.isInfix)
    obtain rfl | ⟨q, rfl, _⟩ := List.prefix_cons_iff.mp hp
    case inl => rw [List.append_nil]; exact List.takeWhile_prefix _
    case inr => exact beforeSpace_append_prefix_left s q

theorem beforeSpace_stripQuotes (t : Text) : beforeSpace (stripQuotes t) = stripQuotes (beforeSpace t) := by
  rw [beforeSpace, stripQuotes, List.takeWhile_filter, beforeSpace, stripQuotes]
  congr 2
  funext c
  cases h : isQuote c
  case false => simp
  case true  => simp; rintro rfl; exact absurd h (by decide)

theorem not_isQuote_of_isWord (h : isWord c = true) : isQuote c = false := by
  by_contra hq
  obtain rfl | rfl | rfl := isQuote_iff.mp (by simpa using hq) <;> exact absurd h (by decide)

-- Letters that stand in one piece among others and quote marks.
theorem stripQuotes_infix_of_letters (hx : ∀ l ∈ x, l.isLower = true) (ht : (stripQuotes t).map foldChar = x)
    (h : x <:+: t.map foldChar) : stripQuotes t <:+: t := by
  obtain ⟨u, hu, rfl⟩ := List.infix_map_iff.mp h
  have hq : Unquoted u := fun c hc =>
    not_isQuote_of_isWord (isWord_of_foldChar (hx _ (List.mem_map_of_mem hc)))
  have hs : u <:+: stripQuotes t := by
    rw [← stripQuotes_eq_self hq]
    exact hu.filter _
  have hl : u.length = (stripQuotes t).length := by
    simpa using congrArg List.length ht.symm
  exact hs.eq_of_length hl ▸ hu

theorem isQuote_toLower (c : Char) : isQuote c.toLower = isQuote c := by
  rw [Bool.eq_iff_iff, isQuote_iff, isQuote_iff]
  constructor
  case mp  => rintro (h | h | h) <;> simp [eq_of_toLower_eq (by decide) h]
  case mpr => rintro (rfl | rfl | rfl) <;> decide

theorem lower_append (t u : Text) : lower (t ++ u) = lower t ++ lower u :=
  List.flatMap_append

theorem stripQuotes_lowerChar (c : Char) : stripQuotes (lowerChar c) = lower (stripQuotes [c]) := by
  obtain rfl | rfl | rfl | rfl | ⟨_, hc⟩ := foldChar_cases c
  case inr.inr.inr.inr =>
    rw [hc, stripQuotes, stripQuotes, List.filter_singleton, List.filter_singleton, isQuote_toLower]
    cases isQuote c <;> simp [lower, hc]
  all_goals decide

theorem stripQuotes_lower (t : Text) : stripQuotes (lower t) = lower (stripQuotes t) := by
  induction t
  case nil => rfl
  case cons c t hi =>
    calc
      stripQuotes (lower (c :: t)) = stripQuotes (lowerChar c) ++ stripQuotes (lower t) := List.filter_append ..
      _ = lower (stripQuotes [c] ++ stripQuotes t) := by rw [stripQuotes_lowerChar, hi, lower_append]
      _ = lower (stripQuotes (c :: t)) := by rw [stripQuotes, stripQuotes, ← List.filter_append]; rfl

-- Without the characters whose lower case is not the letter they count as when case is ignored.
structure FoldsAsLower (t : Text) : Prop where
  dotted : '\u0130' ∉ t
  dotless : '\u0131' ∉ t
  long : '\u017f' ∉ t

theorem FoldsAsLower.lower_eq (h : FoldsAsLower t) : lower t = t.map foldChar := by
  rw [lower, List.map_eq_flatMap]
  refine List.flatMap_congr fun c hm => ?_
  obtain rfl | rfl | rfl | rfl | ⟨hf, hl⟩ := foldChar_cases c
  case inl                 => decide
  case inr.inl             => exact absurd hm h.dotted
  case inr.inr.inl         => exact absurd hm h.dotless
  case inr.inr.inr.inl     => exact absurd hm h.long
  case inr.inr.inr.inr     => rw [hf, hl]

-- What the lower case of a letter may be that counts as `l` when case is ignored.
def lowerings (l : Char) : List Text :=
  if l = 'i' then [['i'], ['i', '\u0307'], ['\u0131']]
  else if l = 's' then [['s'], ['\u017f']]
  else [[l]]

theorem lowerChar_mem_lowerings (c : Char) : lowerChar c ∈ lowerings (foldChar c) := by
  obtain rfl | rfl | rfl | rfl | ⟨hf, hl⟩ := foldChar_cases c
  case inr.inr.inr.inr =>
    rw [hf, hl, lowerings]
    split_ifs with hi hs <;> simp [*]
  all_goals decide

theorem exists_lower_eq (t : Text) :
    ∃ p ∈ ((t.map foldChar).map lowerings).sections, lower t = p.flatten := by
  refine ⟨t.map lowerChar, ?_, List.flatMap_def⟩
  rw [List.mem_sections, List.map_map, List.forall₂_map_left_iff, List.forall₂_map_right_iff, List.forall₂_same]
  exact fun c _ => lowerChar_mem_lowerings c

end Text

namespace Sentence

open Text

-- An opening takes part only if its verb is the first word of the label, without quote marks, and a space
-- stands behind it.
theorem Opening.TakesPart.exists_label_eq {o : Opening} {label code : Text}
    (h : o.TakesPart (described label code)) :
    ∃ r, stripQuotes label = word (stripQuotes label) ++ ' ' :: r ∧
      (word (stripQuotes label)).map foldChar = o.name := by
  have ho := isVerbal_of_mem_openings o h.mem_openings
  obtain ⟨r, hr, _⟩ := h.exists_object?
  obtain ⟨hw, ha, _⟩ := ho.object?_eq_some_iff.mp hr
  rw [described, splice_of_not_told fun ht => ht.not_takesPart o h] at hw ha
  obtain he | ⟨he, hh⟩ := word_describeSelectors_cases (stripQuotes label)
  case inl =>
    rw [he] at hw
    exact absurd (hw.symm.trans (by decide)) ho.name_ne
  case inr =>
    rw [ha, List.head?_cons, eq_comm, List.head?_eq_some_iff] at hh
    obtain ⟨s, hs⟩ := hh
    refine ⟨s, ?_, he ▸ hw⟩
    rw [← hs, word_append_afterWord]

theorem Opening.TakesPart.exists_tell_eq {o : Opening} {label code : Text}
    (h : o.TakesPart (described label code)) : ∃ r, tell label code = o.lead ++ r := by
  obtain ⟨r, _, he⟩ := h.exists_object?
  refine ⟨word r ++ (o.tail ++ afterWord r), ?_⟩
  rw [tell, ← described, he]
  simp

end Sentence

namespace Gherkin

open Text Sentence

-- The verb stands in the label in one piece, and has no i that is one only when case is ignored.
structure HasPlainVerb (label : Text) : Prop where
  whole : word (stripQuotes label) <:+: beforeSpace label
  dotted : '\u0130' ∉ beforeSpace label
  dotless : '\u0131' ∉ beforeSpace label

variable {o : Opening} {label code t u x : Text} {i : Int}

theorem Mentions.mono {words : List Text} (h : Mentions words t) (ht : t <:+: u) : Mentions words u := by
  obtain ⟨word, hm, hw⟩ := h
  exact ⟨word, hm, hw.trans (ht.flatMap lowerChar)⟩

theorem name_infix_lower (ho : o ∈ [Opening.enter, Opening.click]) (hn : (stripQuotes t).map foldChar = o.name)
    (hw : stripQuotes t <:+: t) (h₀ : '\u0130' ∉ t) (h₁ : '\u0131' ∉ t) : o.name <:+: lower t := by
  have key : ∀ o ∈ [Opening.enter, Opening.click], foldChar '\u017f' ∉ o.name := by decide
  have h : FoldsAsLower (stripQuotes t) :=
    ⟨fun hm => h₀ (hw.subset hm), fun hm => h₁ (hw.subset hm), fun hm => key o ho (hn ▸ List.mem_map_of_mem hm)⟩
  rw [← hn, ← h.lower_eq]
  exact hw.flatMap lowerChar

theorem lower_eq_name (ho : o ∈ [Opening.enter, Opening.click]) (hn : t.map foldChar = o.name)
    (hx : x ∈ actionWords) (h : beforeSpace x <:+: lower t) :
    lower t = o.name ∧ beforeSpace x = o.name := by
  have key : ∀ o ∈ [Opening.enter, Opening.click], ∀ p ∈ (o.name.map lowerings).sections, ∀ x ∈ actionWords,
      beforeSpace x <:+: p.flatten → p.flatten = o.name ∧ beforeSpace x = o.name := by decide +kernel
  obtain ⟨p, hp, he⟩ := exists_lower_eq t
  rw [he] at h ⊢
  exact key o ho p (hn ▸ hp) x hx h

-- The verb is the only action word that may stand among its letters, and then it stands there in one piece.
theorem whole_of_infix_lower (ho : o ∈ [Opening.enter, Opening.click])
    (hn : (stripQuotes t).map foldChar = o.name) (hx : x ∈ actionWords) (h : beforeSpace x <:+: lower t) :
    stripQuotes t <:+: t ∧ FoldsAsLower t := by
  have unquoted : ∀ x ∈ actionWords, Unquoted (beforeSpace x) := by decide
  have hs : beforeSpace x <:+: lower (stripQuotes t) := by
    rw [← stripQuotes_eq_self (unquoted x hx), ← stripQuotes_lower]
    exact h.filter _
  obtain ⟨hl, he⟩ := lower_eq_name ho hn hx hs
  have plain : ∀ o ∈ [Opening.enter, Opening.click],
      '\u0307' ∉ o.name ∧ '\u0131' ∉ o.name ∧ '\u017f' ∉ o.name := by decide
  have ⟨dotted, dotless, long⟩ := plain o ho
  have lowered {c d : Char} (hc : c ∈ t) (hq : isQuote c = false) (hd : d ∈ lowerChar c) : d ∈ o.name :=
    hl ▸ List.mem_flatMap_of_mem (mem_stripQuotes.mpr ⟨hc, hq⟩) hd
  have hp : FoldsAsLower t :=
    ⟨fun hm => dotted (lowered hm (by decide) (by decide)),
      fun hm => dotless (lowered hm (by decide) (by decide)),
      fun hm => long (lowered hm (by decide) (by decide))⟩
  have hv := isVerbal_of_mem_openings o (List.mem_append_left [Opening.verify] ho)
  rw [he, hp.lower_eq] at h
  exact ⟨stripQuotes_infix_of_letters hv.letters hn h, hp⟩

theorem mentions_iff_of_name (ho : o ∈ [Opening.enter, Opening.click]) {r : Text}
    (hl : stripQuotes label = word (stripQuotes label) ++ ' ' :: r)
    (hn : (word (stripQuotes label)).map foldChar = o.name) :
    Mentions actionWords label ↔ HasPlainVerb label ∨ Mentions actionWords (fromSpace label) := by
  have hb : stripQuotes (beforeSpace label) = word (stripQuotes label) := by
    rw [← beforeSpace_stripQuotes]
    conv_lhs => rw [hl]
    refine beforeSpace_append (fun hm => ?_) r
    exact absurd (isWord_of_mem_word hm) (by decide)
  have he := beforeSpace_append_fromSpace label
  have hs : ' ' ∈ stripQuotes label := by
    rw [hl]
    simp
  obtain ⟨v, hv⟩ := exists_fromSpace_eq (mem_stripQuotes.mp hs).left
  constructor
  case mp =>
    rintro ⟨x, hx, h⟩
    rw [← he, hv, lower_append] at h
    obtain h | h := beforeSpace_infix_or_behind (v := lower v) h
    case inl =>
      obtain ⟨hw, hp⟩ := whole_of_infix_lower ho (hb ▸ hn) hx h
      exact .inl ⟨hb ▸ hw, hp.dotted, hp.dotless⟩
    case inr => exact .inr ⟨x, hx, hv ▸ h⟩
  case mpr =>
    rintro (h | h)
    case inr => exact h.mono (List.dropWhile_suffix _).isInfix
    case inl =>
      have key : ∀ o ∈ [Opening.enter, Opening.click], o.name ∈ actionWords := by decide
      have hi := name_infix_lower ho (hb ▸ hn) (hb ▸ h.whole) h.dotted h.dotless
      exact Mentions.mono ⟨o.name, key o ho, hi⟩ (List.takeWhile_prefix _).isInfix

-- Where the sentence is told of what the user enters or clicks, the keyword takes the step for an action
-- exactly if the verb is spelled plainly or another action word stands behind it.
theorem mentions_actionWords_iff (ho : o ∈ [Opening.enter, Opening.click])
    (h : o.TakesPart (described label code)) (hi : 1 ≤ i) :
    (∃ r, Sentence.tell label code = o.lead ++ r) ∧
    (Mentions actionWords label ↔ HasPlainVerb label ∨ Mentions actionWords (fromSpace label)) ∧
    (Mentions actionWords label →
      Keyword.inScenario label i = if i = 1 then .action else .continuation) := by
  refine ⟨h.exists_tell_eq, ?mentions, ?keyword⟩
  case mentions =>
    obtain ⟨r, hl, hn⟩ := h.exists_label_eq
    exact mentions_iff_of_name ho hl hn
  case keyword =>
    intro hm
    have h₀ : i ≠ 0 := by omega
    rw [Keyword.inScenario, if_neg h₀, mentions_iff.mpr hm]
    simp

-- Quote marks around the verb and the Kelvin sign in it do no harm.
theorem inScenario_quoted_verb :
    (∃ r, Sentence.tell "\x60Clic\u212a\x60 the button and check it".toList [] = "the user clicks the ".toList ++ r) ∧
    Keyword.inScenario "\x60Clic\u212a\x60 the button and check it".toList 2 = .continuation :=
  have ⟨told, mentions, keyword⟩ := mentions_actionWords_iff (o := .click) (i := 2) (by simp)
    ⟨[.enter], [.verify], rfl, by decide +kernel⟩ (by decide)
  ⟨told, keyword (mentions.mpr (.inl ⟨by decide +kernel, by decide +kernel, by decide +kernel⟩))⟩

-- The sentence of a second step tells an action, its keyword an outcome.
structure IsAtOdds (o : Opening) (label : Text) : Prop where
  takesPart : o.TakesPart (described label [])
  told : o.lead <+: Sentence.tell label []
  mentions : ¬Mentions actionWords label
  keyword : Keyword.inScenario label 1 = .outcome

-- A quote mark in the verb, or an i without a dot, or with a dot in upper case.
theorem misspelt_isAtOdds :
    IsAtOdds .enter "en\x27ter the code and check it".toList ∧
    IsAtOdds .click "cl\u0131ck save and verify".toList ∧
    IsAtOdds .click "cl\u0130ck save and verify".toList := by
  have key {label : Text} (h : mentions actionWords label = false) : ¬Mentions actionWords label := by
    rw [← mentions_iff, h]
    decide
  refine ⟨⟨⟨[], [.click, .verify], rfl, ?_⟩, ?_, key ?_, ?_⟩, ⟨⟨[.enter], [.verify], rfl, ?_⟩, ?_, key ?_, ?_⟩,
    ⟨⟨[.enter], [.verify], rfl, ?_⟩, ?_, key ?_, ?_⟩⟩ <;> decide +kernel

end Gherkin
end GherkinView
