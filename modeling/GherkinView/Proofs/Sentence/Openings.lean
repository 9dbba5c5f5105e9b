import GherkinView.Proofs.Text.Words
import GherkinView.Sentence.Opening

namespace GherkinView

theorem Text.afterFolded?_eq_some_iff {lead t r : Text} :
    afterFolded? lead t = some r ↔ ∃ s, t = s ++ r ∧ s.map foldChar = lead := by
  induction lead generalizing t
  case nil => simp [afterFolded?, eq_comm]
  case cons l ls hi =>
    cases t
    case nil => simp [afterFolded?]
    case cons c t =>
      rw [afterFolded?]
      constructor
      case mp =>
        intro h
        split at h
        case isFalse => contradiction
        case isTrue hc =>
          obtain ⟨s, rfl, hs⟩ := hi.mp h
          exact ⟨c :: s, rfl, by rw [List.map_cons, hc, hs]⟩
      case mpr =>
        rintro ⟨s, ht, hs⟩
        cases s
        case nil => contradiction
        case cons d s =>
          obtain ⟨rfl, rfl⟩ := List.cons.inj ht
          obtain ⟨hc, hs⟩ := List.cons.inj hs
          rw [if_pos hc]
          exact hi.mpr ⟨s, rfl, hs⟩

namespace Sentence

open Text

def article : Text := "the".toList

namespace Opening

-- The verb without the blank behind it.
def name (o : Opening) : Text :=
  o.verb.dropLast

structure IsVerbal (o : Opening) : Prop where
  verb : o.verb = o.name ++ [' ']
  letters : ∀ l ∈ o.name, l.isLower = true
  name_ne : o.name ≠ article
  lead : article ++ [' '] <+: o.lead

-- The opening applies when its turn comes.
def TakesPart (o : Opening) (t : Text) : Prop :=
  ∃ before after, openings = before ++ o :: after ∧
    (o.object? (before.foldl (fun t o => o.apply t) t)).isSome = true

end Opening

theorem isVerbal_of_mem_openings : ∀ o ∈ openings, o.IsVerbal := by
  simp only [openings, List.mem_cons, forall_eq_or_imp]
  refine ⟨⟨?_, List.all_eq_true.mp ?_, ?_, ?_⟩, ⟨?_, List.all_eq_true.mp ?_, ?_, ?_⟩,
    ⟨?_, List.all_eq_true.mp ?_, ?_, ?_⟩, by simp⟩ <;> decide

theorem nodup_map_name_openings : (openings.map Opening.name).Nodup := by
  decide

variable {o : Opening} {os : List Opening} {t r : Text}

namespace Opening.IsVerbal

theorem object?_eq_some_iff (ho : o.IsVerbal) :
    o.object? t = some r ↔ (word t).map foldChar = o.name ∧ afterWord t = ' ' :: r ∧ word r ≠ [] := by
  have hb : isWord ' ' = false := by decide
  rw [object?, Option.filter_eq_some_iff, afterFolded?_eq_some_iff, ho.verb]
  constructor
  case mp =>
    rintro ⟨⟨s, rfl, hs⟩, hr⟩
    obtain ⟨w, s, rfl, hw, hs⟩ := List.map_eq_append_iff.mp hs
    obtain ⟨c, s, rfl, hc, hs⟩ := List.map_eq_cons_iff.mp hs
    obtain rfl := List.map_eq_nil_iff.mp hs
    obtain rfl := eq_of_foldChar_eq (by decide) hc
    have hl : ∀ c ∈ w, isWord c = true := fun c hm =>
      isWord_of_foldChar (ho.letters _ (hw ▸ List.mem_map_of_mem hm))
    rw [List.append_assoc, List.singleton_append, word_append hl (by simpa using hb),
      afterWord_append hl (by simpa using hb)]
    exact ⟨hw, rfl, by simpa using hr⟩
  case mpr =>
    rintro ⟨hw, ht, hr⟩
    refine ⟨⟨word t ++ [' '], ?_, ?_⟩, by simpa using hr⟩
    case refine_1 => rw [List.append_assoc, List.singleton_append, ← ht, word_append_afterWord]
    case refine_2 => rw [List.map_append, hw]; rfl

theorem object?_inj {o' : Opening} {r' : Text} (ho : o.IsVerbal) (ho' : o'.IsVerbal)
    (h : o.object? t = some r) (h' : o'.object? t = some r') : o.name = o'.name ∧ r = r' := by
  obtain ⟨hw, ht, _⟩ := ho.object?_eq_some_iff.mp h
  obtain ⟨hw', ht', _⟩ := ho'.object?_eq_some_iff.mp h'
  exact ⟨hw.symm.trans hw', (List.cons.inj (ht.symm.trans ht')).right⟩

theorem object?_article (ho : o.IsVerbal) (r : Text) : o.object? (article ++ ' ' :: r) = none := by
  rw [Option.eq_none_iff_forall_ne_some]
  intro r' h
  have hw := (ho.object?_eq_some_iff.mp h).left
  rw [word_append (List.all_eq_true.mp (by decide)) (by simp; decide)] at hw
  exact ho.name_ne (hw ▸ by decide)

theorem exists_apply_eq (ho : o.IsVerbal) (h : o.object? t = some r) :
    ∃ s, o.apply t = article ++ ' ' :: s := by
  obtain ⟨s, hs⟩ := ho.lead
  refine ⟨s ++ word r ++ o.tail ++ afterWord r, ?_⟩
  simp [Opening.apply, h, ← hs]

end Opening.IsVerbal

theorem apply_eq_self (h : o.object? t = none) : o.apply t = t := by
  rw [Opening.apply, h]

theorem foldl_apply_eq_self (h : ∀ o ∈ os, o.object? t = none) : os.foldl (fun t o => o.apply t) t = t := by
  induction os
  case nil => rfl
  case cons o os hi =>
    simp only [List.mem_cons, forall_eq_or_imp] at h
    rw [List.foldl_cons, apply_eq_self h.left, hi h.right]

-- Behind an opening that applies no other one does.
theorem foldl_apply_article (h : ∀ o ∈ os, o.IsVerbal) (r : Text) :
    os.foldl (fun t o => o.apply t) (article ++ ' ' :: r) = article ++ ' ' :: r :=
  foldl_apply_eq_self fun o ho => (h o ho).object?_article r

theorem foldl_apply_cases (h : ∀ o ∈ os, o.IsVerbal) (t : Text) :
    os.foldl (fun t o => o.apply t) t = t ∨ ∃ r, os.foldl (fun t o => o.apply t) t = article ++ ' ' :: r := by
  induction os
  case nil => exact .inl rfl
  case cons o os hi =>
    simp only [List.mem_cons, forall_eq_or_imp] at h
    rw [List.foldl_cons]
    cases ho : o.object? t
    case none => rw [apply_eq_self ho]; exact hi h.right
    case some =>
      obtain ⟨s, hs⟩ := h.left.exists_apply_eq ho
      exact .inr ⟨s, by rw [hs, foldl_apply_article h.right]⟩

-- An opening that takes part applies to the sentence itself, and nothing else changes the sentence.
theorem Opening.TakesPart.exists_object? (h : o.TakesPart t) :
    ∃ r, o.object? t = some r ∧ applyOpenings t = o.lead ++ word r ++ o.tail ++ afterWord r := by
  obtain ⟨before, after, he, hs⟩ := h
  have hv := isVerbal_of_mem_openings
  rw [he, List.forall_mem_append, List.forall_mem_cons] at hv
  obtain ⟨hb, ho, ha⟩ := hv
  obtain ⟨r, hr⟩ := Option.isSome_iff_exists.mp hs
  obtain ht | ⟨s, ht⟩ := foldl_apply_cases hb t
  case inr => rw [ht, ho.object?_article] at hr; contradiction
  case inl =>
    rw [ht] at hr
    obtain ⟨s, hs⟩ := ho.exists_apply_eq hr
    refine ⟨r, hr, ?_⟩
    calc
      applyOpenings t = after.foldl (fun t o => o.apply t) (o.apply t) := by
        rw [applyOpenings, he, List.foldl_append, List.foldl_cons, ht]
      _ = o.apply t := by rw [hs, foldl_apply_article ha]
      _ = o.lead ++ word r ++ o.tail ++ afterWord r := by rw [Opening.apply, hr]

theorem Opening.TakesPart.mem_openings (h : o.TakesPart t) : o ∈ openings := by
  obtain ⟨before, after, he, _⟩ := h
  exact he ▸ List.mem_append_right before List.mem_cons_self

theorem applyOpenings_cases (t : Text) :
    (∀ o ∈ openings, o.object? t = none) ∧ applyOpenings t = t ∨
    ∃ o ∈ openings, ∃ r, o.object? t = some r ∧ applyOpenings t = o.lead ++ word r ++ o.tail ++ afterWord r := by
  cases hf : openings.find? fun o => (o.object? t).isSome
  case none =>
    have hn : ∀ o ∈ openings, o.object? t = none := by simpa using hf
    exact .inl ⟨hn, foldl_apply_eq_self hn⟩
  case some o =>
    obtain ⟨hs, before, after, he, hb⟩ := List.find?_eq_some_iff_append.mp hf
    have hn : before.foldl (fun t o => o.apply t) t = t := foldl_apply_eq_self (by simpa using hb)
    have ho : o.TakesPart t := ⟨before, after, he, by rwa [hn]⟩
    exact .inr ⟨o, ho.mem_openings, ho.exists_object?⟩

end Sentence
end GherkinView
