import GherkinView.Proofs.Sentence.Openings

namespace GherkinView.Sentence

open Text
open scoped List

variable {o o' : Opening} {os : List Opening} {t r : Text}

theorem Opening.IsVerbal.apply_ne_iff (ho : o.IsVerbal) : o.apply t ≠ t ↔ ∃ r, o.object? t = some r := by
  constructor
  case mp =>
    contrapose!
    exact fun h => apply_eq_self (Option.eq_none_iff_forall_ne_some.mpr h)
  case mpr =>
    rintro ⟨r, hr⟩ he
    obtain ⟨s, hs⟩ := ho.exists_apply_eq hr
    rw [← he, hs, ho.object?_article] at hr
    contradiction

-- Openings with different verbs do not change the same text.
theorem Opening.IsVerbal.apply_eq_self_of_ne (ho : o.IsVerbal) (ho' : o'.IsVerbal) (hn : o.name ≠ o'.name)
    (h : o.apply t ≠ t) : o'.apply t = t := by
  by_contra h'
  obtain ⟨r, hr⟩ := ho.apply_ne_iff.mp h
  obtain ⟨r', hr'⟩ := ho'.apply_ne_iff.mp h'
  exact hn (ho.object?_inj ho' hr hr').left

-- Behind an opening that changes the text no other one does.
theorem Opening.IsVerbal.apply_apply (ho : o.IsVerbal) (ho' : o'.IsVerbal) (h : o.apply t ≠ t) :
    o'.apply (o.apply t) = o.apply t := by
  obtain ⟨r, hr⟩ := ho.apply_ne_iff.mp h
  obtain ⟨s, hs⟩ := ho.exists_apply_eq hr
  rw [hs, apply_eq_self (ho'.object?_article s)]

theorem Opening.IsVerbal.apply_comm (ho : o.IsVerbal) (ho' : o'.IsVerbal) (hn : o.name ≠ o'.name) (t : Text) :
    o'.apply (o.apply t) = o.apply (o'.apply t) := by
  by_cases h : o.apply t = t
  case neg => rw [ho.apply_apply ho' h, ho.apply_eq_self_of_ne ho' hn h]
  case pos =>
    rw [h]
    by_cases h' : o'.apply t = t
    case pos => rw [h', h]
    case neg => rw [ho'.apply_apply ho h']

-- The openings that change the text, each of `os` when its turn comes.
def changing : List Opening → Text → List Opening
  | [], _ => []
  | o :: os, t => if o.apply t = t then changing os t else o :: changing os (o.apply t)

theorem changing_eq_nil (h : ∀ o ∈ os, o.apply t = t) : changing os t = [] := by
  induction os
  case nil => rfl
  case cons o os hi =>
    rw [changing, if_pos (h o List.mem_cons_self)]
    exact hi fun o ho => h o (List.mem_cons_of_mem _ ho)

-- An opening that changes the text does so wherever it stands, and it alone.
theorem changing_eq_filter (hv : ∀ o ∈ os, o.IsVerbal) (hn : (os.map Opening.name).Nodup) :
    changing os t = os.filter (·.apply t ≠ t) ∧ (os.filter (·.apply t ≠ t)).length ≤ 1 := by
  induction os
  case nil => exact ⟨rfl, Nat.zero_le 1⟩
  case cons o os hi =>
    obtain ⟨ho, hos⟩ := List.forall_mem_cons.mp hv
    obtain ⟨hno, hnos⟩ := List.nodup_cons.mp hn
    rw [changing]
    by_cases h : o.apply t = t
    case pos =>
      rw [if_pos h, List.filter_cons_of_neg (by simpa using h)]
      exact hi hos hnos
    case neg =>
      have hf : os.filter (·.apply t ≠ t) = [] := by
        refine List.filter_eq_nil_iff.mpr fun o' ho' => ?_
        have hne : o.name ≠ o'.name := fun he => hno (he ▸ List.mem_map_of_mem ho')
        simpa using ho.apply_eq_self_of_ne (hos o' ho') hne h
      have hx : changing os (o.apply t) = [] :=
        changing_eq_nil fun o' ho' => ho.apply_apply (hos o' ho') h
      rw [if_neg h, List.filter_cons_of_pos (by simpa using h), hf, hx]
      exact ⟨rfl, Nat.le_refl 1⟩

theorem Opening.IsVerbal.apply_ne_iff_word (ho : o.IsVerbal) : o.apply t ≠ t ↔
    (word t).map foldChar = o.name ∧ ∃ r, afterWord t = ' ' :: r ∧ word r ≠ [] := by
  simp only [ho.apply_ne_iff, ho.object?_eq_some_iff, exists_and_left]

-- An opening changes a text that its verb opens, with a blank and a word behind. Of the openings at most one
-- does, in whatever order they have their turns, and none changes what it makes of the text.
theorem applyOpenings_once (t : Text) :
    (∀ o ∈ openings, o.apply t ≠ t ↔
      (word t).map foldChar = o.name ∧ ∃ r, afterWord t = ' ' :: r ∧ word r ≠ []) ∧
    (openings.filter (·.apply t ≠ t)).length ≤ 1 ∧
    (∀ os, os ~ openings → changing os t = openings.filter (·.apply t ≠ t) ∧
      os.foldl (fun t o => o.apply t) t = applyOpenings t) ∧
    applyOpenings (applyOpenings t) = applyOpenings t := by
  have hl := (changing_eq_filter (t := t) isVerbal_of_mem_openings nodup_map_name_openings).right
  refine ⟨fun o ho => (isVerbal_of_mem_openings o ho).apply_ne_iff_word, hl, fun os hp => ⟨?turns, ?result⟩, ?again⟩
  case turns =>
    have hv : ∀ o ∈ os, o.IsVerbal := fun o ho => isVerbal_of_mem_openings o (hp.subset ho)
    have hn : (os.map Opening.name).Nodup := (hp.map _).nodup_iff.mpr nodup_map_name_openings
    have hf : os.filter (·.apply t ≠ t) ~ openings.filter (·.apply t ≠ t) := hp.filter _
    rw [(changing_eq_filter hv hn).left]
    rcases he : openings.filter (·.apply t ≠ t) with _ | ⟨o, _ | ⟨o', rest⟩⟩ <;> rw [he] at hf hl ⊢
    · exact hf.eq_nil
    · exact hf.eq_singleton
    · simp at hl
  case result =>
    refine hp.foldl_eq' (fun o ho o' ho' t => ?_) t
    by_cases hn : o.name = o'.name
    case pos =>
      rw [List.inj_on_of_nodup_map nodup_map_name_openings (hp.subset ho) (hp.subset ho') hn]
    case neg =>
      exact (isVerbal_of_mem_openings o (hp.subset ho)).apply_comm
        (isVerbal_of_mem_openings o' (hp.subset ho')) hn t
  case again =>
    obtain h | ⟨s, h⟩ := foldl_apply_cases isVerbal_of_mem_openings t
    case inl => exact congrArg applyOpenings h
    case inr =>
      have h : applyOpenings t = article ++ ' ' :: s := h
      rw [h]
      exact foldl_apply_article isVerbal_of_mem_openings s

end GherkinView.Sentence
