import Mathlib.Data.List.TakeWhile
import GherkinView.Proofs.Text.Lines
import GherkinView.Proofs.Text.Quote
import GherkinView.Sentence.Telling

namespace GherkinView.Sentence

open Text

def isSeam (c : Char) : Bool :=
  isQuote c || c == '\n'

def seams (t : Text) : Text :=
  t.filter isSeam

section Classes

variable {c : Char}

theorem isSeam_iff : isSeam c = true ↔ c = '\x27' ∨ c = '\x22' ∨ c = '\x60' ∨ c = '\n' := by
  simp [isSeam, isQuote_iff, or_assoc]

theorem not_isNameChar_of_isSeam (h : isSeam c = true) : isNameChar c = false := by
  obtain rfl | rfl | rfl | rfl := isSeam_iff.mp h <;> decide

theorem not_isSeam_of_isNameChar (h : isNameChar c = true) : isSeam c = false := by
  by_contra hc
  simp [not_isNameChar_of_isSeam (by simpa using hc)] at h

theorem not_isSeam_of_isWord (h : isWord c = true) : isSeam c = false :=
  not_isSeam_of_isNameChar (by simp [isNameChar, h])

-- Ignoring case makes no letter of a seam.
theorem foldChar_of_isSeam (h : isSeam c = true) : foldChar c = c := by
  obtain rfl | rfl | rfl | rfl := isSeam_iff.mp h <;> decide

end Classes

variable {t r : Text}

theorem seams_eq_nil (h : ∀ c ∈ t, isSeam c = false) : seams t = [] := by
  simpa [seams] using h

theorem seams_append (t u : Text) : seams (t ++ u) = seams t ++ seams u :=
  List.filter_append ..

theorem seams_cons (c : Char) (t : Text) :
    seams (c :: t) = (if isSeam c then [c] else []) ++ seams t := by
  simp only [seams, List.filter_cons]
  split <;> rfl

theorem seams_cons_eq_nil : seams (c :: t) = [] ↔ isSeam c = false ∧ seams t = [] := by
  rw [seams_cons]
  cases isSeam c <;> simp

theorem seams_takeWhile_of {p : Char → Bool} (h : ∀ c, p c = true → isSeam c = false) :
    seams (t.takeWhile p) = [] :=
  seams_eq_nil fun c hc => h c (List.mem_takeWhile_imp hc)

theorem seams_dropWhile_of {p : Char → Bool} (h : ∀ c, p c = true → isSeam c = false) :
    seams (t.dropWhile p) = seams t := by
  conv_rhs => rw [← List.takeWhile_append_dropWhile (p := p) (l := t)]
  rw [seams_append, seams_takeWhile_of h, List.nil_append]

theorem seams_word (t : Text) : seams (word t) = [] :=
  seams_takeWhile_of fun _ => not_isSeam_of_isWord

theorem seams_afterWord (t : Text) : seams (afterWord t) = seams t :=
  seams_dropWhile_of fun _ => not_isSeam_of_isWord

-- A kind of selector whose own characters are no seams.
structure SelectorKind.Seamless (k : SelectorKind) : Prop where
  mark : isSeam k.mark = false
  noun : seams k.noun = []

theorem SelectorKind.Seamless.field : SelectorKind.field.Seamless := ⟨by decide, by decide⟩

theorem SelectorKind.Seamless.element : SelectorKind.element.Seamless := ⟨by decide, by decide⟩

theorem SelectorKind.Seamless.seams_phrase {k : SelectorKind} (hk : k.Seamless) (name : Text) :
    seams (k.phrase name) = seams name := by
  have hb : isSeam ' ' = false := by decide
  rw [SelectorKind.phrase, seams_append, seams_append, seams_cons, hk.noun, hb]
  exact List.append_nil _

theorem seams_describeFrom {k : SelectorKind} (hk : k.Seamless) (admits : Bool) (t : Text) :
    seams (describeFrom k admits t) = seams t := by
  induction t generalizing admits
  case nil => rfl
  case cons c r hi =>
    rw [describeFrom]
    split
    case isTrue h =>
      have hc : c = k.mark := by simp at h; exact h.left.right
      have hn : ∀ c, isNameChar c = true → isSeam c = false := fun _ => not_isSeam_of_isNameChar
      rw [seams_append, hk.seams_phrase, seams_takeWhile_of hn, seams_dropWhile_of hn, seams_cons,
        hc, hk.mark]
      rfl
    case isFalse => rw [seams_cons, seams_cons, hi]

theorem seams_describeSelectors (t : Text) : seams (describeSelectors t) = seams t := by
  rw [describeSelectors, describe, seams_describeFrom .element, describe, seams_describeFrom .field]

theorem seams_of_afterFolded? {lead : Text} (hl : seams lead = [])
    (h : afterFolded? lead t = some r) : seams t = seams r := by
  induction lead generalizing t
  case nil => simp_all [afterFolded?]
  case cons l ls hi =>
    cases t
    case nil => contradiction
    case cons c t =>
      have ⟨hl, hls⟩ := seams_cons_eq_nil.mp hl
      rw [afterFolded?] at h
      split at h
      case isFalse => contradiction
      case isTrue hc =>
        have hs : isSeam c = false := by
          by_contra hs
          have hf := foldChar_of_isSeam (by simpa using hs)
          exact hs (hf.symm.trans hc ▸ hl)
        rw [seams_cons, hs, hi hls h]
        rfl

structure Opening.Seamless (o : Opening) : Prop where
  verb : seams o.verb = []
  lead : seams o.lead = []
  tail : seams o.tail = []

theorem Opening.Seamless.seams_apply {o : Opening} (ho : o.Seamless) (t : Text) :
    seams (o.apply t) = seams t := by
  rw [Opening.apply]
  split
  case h_2 => rfl
  case h_1 r h =>
    simp only [Opening.object?, Option.filter_eq_some_iff] at h
    simp [seams_append, ho.lead, ho.tail, seams_word, seams_afterWord,
      seams_of_afterFolded? ho.verb h.left]

theorem openings_seamless : ∀ o ∈ openings, o.Seamless := by
  simp only [openings, List.mem_cons, forall_eq_or_imp]
  refine ⟨⟨?_, ?_, ?_⟩, ⟨?_, ?_, ?_⟩, ⟨?_, ?_, ?_⟩, by simp⟩ <;> decide

theorem seams_applyOpenings (t : Text) : seams (applyOpenings t) = seams t := by
  have key (os : List Opening) (h : ∀ o ∈ os, o.Seamless) (t : Text) :
      seams (os.foldl (fun t o => o.apply t) t) = seams t := by
    induction os generalizing t
    case nil => rfl
    case cons o os hi =>
      simp only [List.mem_cons, forall_eq_or_imp] at h
      rw [List.foldl_cons, hi h.right, h.left.seams_apply]
  exact key openings openings_seamless t

-- The value that a sentence is told with.
def toldValue? (label code : Text) : Option Text :=
  if (word (stripQuotes label)).isEmpty then none else value? code

theorem seams_stripQuotes {label : Text} (h : '\n' ∉ label) : seams (stripQuotes label) = [] := by
  apply seams_eq_nil
  intro c hc
  have ⟨hm, hq⟩ := List.mem_filter.mp hc
  have hn : c ≠ '\n' := fun he => h (he ▸ hm)
  simpa [isSeam, hn] using hq

theorem seams_splice {t : Text} (ht : seams t = []) (code : Text) :
    seams (splice t code) =
      (if (word t).isEmpty then none else value? code).elim [] fun v => '\x22' :: seams v ++ ['\x22'] := by
  have hb : isSeam ' ' = false := by decide
  have hq : isSeam '\x22' = true := by decide
  unfold splice insertValue
  cases value? code <;> cases hw : (word t).isEmpty <;>
    simp [seams_append, seams_cons, seams_word, seams_afterWord, ht, hb, hq]

-- All the seams of a sentence are those of its value and the quote marks around it.
theorem seams_tell {label : Text} (h : '\n' ∉ label) (code : Text) :
    seams (tell label code) = (toldValue? label code).elim [] fun v => '\x22' :: seams v ++ ['\x22'] := by
  rw [tell, seams_applyOpenings, seams_describeSelectors, seams_splice (seams_stripQuotes h), toldValue?]

theorem mem_seams {c : Char} : c ∈ seams t ↔ c ∈ t ∧ isSeam c = true :=
  List.mem_filter

theorem newline_mem_seams : '\n' ∈ seams t ↔ '\n' ∈ t := by
  rw [mem_seams, and_iff_left (by decide)]

theorem newline_mem_tell_iff {label code : Text} (h : '\n' ∉ label) :
    '\n' ∈ tell label code ↔ ∃ v ∈ toldValue? label code, '\n' ∈ v := by
  rw [← newline_mem_seams, seams_tell h]
  cases toldValue? label code <;> simp [newline_mem_seams]

-- Behind the line feeds of a value stands a double quote, so trimming does not reach them.
theorem newline_mem_trimEnd_tell {label code : Text} (h : '\n' ∉ label) (indent : Text)
    (hm : '\n' ∈ tell label code) : '\n' ∈ trimEnd (indent ++ tell label code) := by
  have ⟨u, hu, ht⟩ := trimEnd_append_trimmed (indent ++ tell label code)
  by_contra hc
  have hn : '\n' ∈ u := by
    have := ht ▸ List.mem_append_right indent hm
    exact (List.mem_append.mp this).resolve_left hc
  have hl : (seams u).getLast? = some '\x22' := by
    have ⟨v, hv, _⟩ := (newline_mem_tell_iff h).mp hm
    have hs : seams u ≠ [] := List.ne_nil_of_mem (newline_mem_seams.mpr hn)
    have := congrArg (List.getLast? ∘ seams) ht
    simpa [seams_append, seams_tell h, Option.mem_def.mp hv, List.getLast?_append, List.getLast?_cons,
      List.getLast?_eq_some_getLast hs] using this
  have hb := hu '\x22' (mem_seams.mp (List.mem_of_getLast? hl)).left
  contradiction

end GherkinView.Sentence
