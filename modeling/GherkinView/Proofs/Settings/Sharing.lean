import GherkinView.Proofs.Settings.Entries

namespace GherkinView.Settings

-- A mapping with that anchor stands in the value.
inductive Value.Mentions (a : Nat) : Value → Prop
  | here {es} : Mentions a (.mapping es (some a))
  | item {items} {v : Value} (hm : v ∈ items) (h : Mentions a v) : Mentions a (.list items)
  | entry {es : Entries} {e : Scalar × Value} {b} (hm : e ∈ es) (h : Mentions a e.2) : Mentions a (.mapping es b)

-- No mapping that the overrides change stands at another place, too.
def Entries.Unshared (base overrides : Entries) : Prop :=
  ∀ k lower a, base.get? k = some (.mapping lower (some a)) →
    (∃ upper b, overrides.get? k = some (.mapping upper b)) →
    ∀ e ∈ base, e.1.key ≠ k.key → ¬e.2.Mentions a

section

variable {a : Nat} {b : Option Nat} {es new base upper overrides : Entries} {items : List Value}
variable {k : Scalar} {v : Value}

-- Nothing is put where the mapping does not stand.

mutual

theorem Value.refill_of_not_mentions (new : Entries) : ∀ {v : Value}, ¬v.Mentions a → v.refill a new = v
  | .scalar s, _ => by rw [Value.refill]
  | .list items, h => by rw [Value.refill, refillItems_of_not_mentions new fun v hm hv => h (.item hm hv)]
  | .mapping es b, h => by
    have hb : b ≠ some a := fun hb => h (hb ▸ .here)
    rw [Value.refill, if_neg hb, refillEntries_of_not_mentions new fun e hm he => h (.entry hm he)]

theorem refillItems_of_not_mentions (new : Entries) :
    ∀ {items : List Value}, (∀ v ∈ items, ¬v.Mentions a) → refillItems a new items = items
  | [], _ => rfl
  | v :: items, h => by
    have ⟨hv, h⟩ := List.forall_mem_cons.mp h
    rw [refillItems, Value.refill_of_not_mentions new hv, refillItems_of_not_mentions new h]

theorem refillEntries_of_not_mentions (new : Entries) :
    ∀ {es : Entries}, (∀ e ∈ es, ¬e.2.Mentions a) → refillEntries a new es = es
  | [], _ => rfl
  | (k, v) :: es, h => by
    have ⟨hv, h⟩ := List.forall_mem_cons.mp h
    rw [refillEntries, Value.refill_of_not_mentions new hv, refillEntries_of_not_mentions new h]

end

-- A mapping that stands at one place is changed there.
theorem refillEntries_eq_set {lower : Entries} (hk : es.keys.Nodup)
    (hl : es.get? k = some (.mapping lower (some a))) (h : ∀ e ∈ es, e.1.key ≠ k.key → ¬e.2.Mentions a) :
    refillEntries a new es = es.set k (.mapping new (some a)) := by
  induction es
  case nil => contradiction
  case cons e es hi =>
    have ⟨j, v⟩ := e
    have ⟨hj, hk⟩ := List.nodup_cons.mp hk
    have ⟨hv, hes⟩ := List.forall_mem_cons.mp h
    rw [Entries.get?_cons] at hl
    rw [refillEntries, Entries.set]
    by_cases hjk : j.key = k.key
    case pos =>
      rw [if_pos hjk.symm] at hl
      obtain rfl : v = .mapping lower (some a) := Option.some.inj hl
      have hn : ∀ e ∈ es, ¬e.2.Mentions a := by
        intro e hm
        refine hes e hm fun he => hj ?_
        exact List.mem_map.mpr ⟨e, hm, he.trans hjk.symm⟩
      rw [if_pos hjk, Value.refill, if_pos rfl, refillEntries_of_not_mentions new hn]
    case neg =>
      rw [if_neg (Ne.symm hjk)] at hl
      rw [if_neg hjk, Value.refill_of_not_mentions new (hv hjk), hi hk hl hes]

-- What has no mapping that is shared

mutual

theorem Value.not_mentions_plain : ∀ v : Value, ¬v.plain.Mentions a
  | .scalar _ => by rw [Value.plain]; exact nofun
  | .list items => by
    rw [Value.plain]
    rintro (_ | ⟨hm, h⟩)
    exact not_mentions_plainItems items _ hm h
  | .mapping es _ => by
    rw [Value.plain]
    rintro (_ | _ | ⟨hm, h⟩)
    exact not_mentions_plainEntries es _ hm h

theorem not_mentions_plainItems : ∀ items : List Value, ∀ v ∈ plainItems items, ¬v.Mentions a
  | [] => nofun
  | v :: items => List.forall_mem_cons.mpr ⟨v.not_mentions_plain, not_mentions_plainItems items⟩

theorem not_mentions_plainEntries : ∀ es : Entries, ∀ e ∈ plainEntries es, ¬e.2.Mentions a
  | [] => nofun
  | (_, v) :: es => List.forall_mem_cons.mpr ⟨v.not_mentions_plain, not_mentions_plainEntries es⟩

end

theorem plainEntries_eq_map (es : Entries) : plainEntries es = es.map fun e => (e.1, e.2.plain) := by
  induction es
  case nil => rw [plainEntries, List.map_nil]
  case cons e es hi => rw [plainEntries, hi, List.map_cons]

theorem keys_plainEntries (es : Entries) : Entries.keys (plainEntries es) = es.keys := by
  rw [plainEntries_eq_map, Entries.keys, List.map_map]
  rfl

theorem get?_plainEntries (es : Entries) (k : Scalar) :
    Entries.get? (plainEntries es) k = (es.get? k).map Value.plain := by
  induction es
  case nil => rw [plainEntries, Entries.get?_nil, Option.map_none]
  case cons e es hi =>
    rw [plainEntries, Entries.get?_cons, Entries.get?_cons, hi]
    split <;> rfl

theorem plainItems_eq_map (items : List Value) : plainItems items = items.map Value.plain := by
  induction items
  case nil => rw [plainItems, List.map_nil]
  case cons v items hi => rw [plainItems, hi, List.map_cons]

theorem keysDistinct_plain (h : v.KeysDistinct) : v.plain.KeysDistinct := by
  induction h
  case scalar s => exact .scalar s
  case list hi =>
    rw [Value.plain, plainItems_eq_map]
    exact .list (List.forall_mem_map.mpr hi)
  case mapping es _ hk _ hi =>
    rw [← keys_plainEntries] at hk
    refine .mapping hk ?_
    rw [plainEntries_eq_map]
    exact List.forall_mem_map.mpr hi

-- Changes one after the other

theorem mem_setAll {e : Scalar × Value} (h : e ∈ Entries.setAll base upper) :
    e ∈ base ∨ ∃ e' ∈ upper, e.2 = e'.2 := by
  induction upper generalizing base
  case nil => exact .inl h
  case cons e' upper hi =>
    obtain h | ⟨e'', hm, h⟩ := hi h
    case inr => exact .inr ⟨e'', List.mem_cons_of_mem _ hm, h⟩
    case inl =>
      obtain h | ⟨h, _⟩ := Entries.mem_set h
      · exact .inl h
      · exact .inr ⟨e', List.mem_cons_self, h⟩

theorem not_mentions_combine {lower? : Option Value} (hl : ∀ w ∈ lower?, ¬w.Mentions a) (hv : ¬v.Mentions a) :
    ¬(combine changed lower? v).Mentions a := by
  unfold combine
  split
  case h_2 => exact hv
  case h_1 lower b upper c =>
    have hl := hl _ rfl
    intro h
    cases h
    case here => exact hl .here
    case entry h hm =>
      obtain hm | ⟨e, hm, he⟩ := mem_setAll hm
      · exact hl (.entry hm h)
      · exact hv (.entry hm (he ▸ h))

theorem overrideSection_eq_set (hk : base.keys.Nodup) (hs : base.Unshared ((k, v) :: overrides)) :
    overrideSection base k v = base.set k (combine changed (base.get? k) v) := by
  have hv : Entries.get? ((k, v) :: overrides) k = some v := by rw [Entries.get?_cons, if_pos rfl]
  unfold overrideSection
  rcases hl : base.get? k with _ | _ | _ | ⟨lower, _ | a⟩ <;> cases v
  case some.mapping.some.mapping upper b =>
    exact refillEntries_eq_set hk hl (hs k lower a hl ⟨upper, b, hv⟩)
  all_goals rfl

theorem Entries.Unshared.step (hs : base.Unshared ((k, v) :: overrides)) (hk : k.key ∉ Entries.keys overrides)
    (hv : ∀ a, ¬v.Mentions a) : (base.set k (combine changed (base.get? k) v)).Unshared overrides := by
  intro j lower a hl ho e he hj
  have hjk : j.key ≠ k.key := by
    intro hjk
    obtain ⟨_, _, ho⟩ := ho
    rw [Entries.get?_eq_none_of_not_mem (hjk ▸ hk)] at ho
    contradiction
  rw [Entries.get?_set, if_neg hjk] at hl
  have hn := hs j lower a hl (by rwa [Entries.get?_cons, if_neg hjk])
  obtain he | ⟨he, _⟩ := Entries.mem_set he
  case inl => exact hn e he hj
  case inr =>
    rw [he]
    refine not_mentions_combine (fun w hw => ?_) (hv a)
    obtain ⟨i, hi, hm⟩ := Entries.mem_of_get? hw
    exact hn (i, w) hm fun h => hjk (h.symm.trans hi)

theorem override_eq_update (hb : base.keys.Nodup) (ho : overrides.keys.Nodup) (hs : base.Unshared overrides)
    (hn : ∀ a, ∀ e ∈ overrides, ¬e.2.Mentions a) :
    override base overrides = base.update (combine changed) overrides := by
  induction overrides generalizing base
  case nil => rfl
  case cons e overrides hi =>
    have ⟨k, v⟩ := e
    have ⟨hk, ho⟩ := List.nodup_cons.mp ho
    have hv (a : Nat) : ¬v.Mentions a := hn a (k, v) List.mem_cons_self
    have he : override base ((k, v) :: overrides) = override (overrideSection base k v) overrides := rfl
    rw [he, overrideSection_eq_set hb hs]
    exact hi (Entries.nodup_keys_set hb) ho (hs.step hk hv) fun a e he => hn a e (List.mem_cons_of_mem _ he)

end
end GherkinView.Settings
