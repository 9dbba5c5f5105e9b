import GherkinView.Settings.Layer
import Mathlib.Data.List.Nodup

namespace GherkinView.Settings

namespace Entries

def keys (es : Entries) : List Scalar :=
  es.map (·.1.key)

end Entries

namespace Value

-- Each mapping within has each of its keys once.
inductive KeysDistinct : Value → Prop
  | scalar (s : Scalar) : KeysDistinct (.scalar s)
  | list {items} (h : ∀ v ∈ items, KeysDistinct v) : KeysDistinct (.list items)
  | mapping {es : Entries} {a} (hk : es.keys.Nodup) (h : ∀ e ∈ es, KeysDistinct e.snd) :
    KeysDistinct (.mapping es a)

-- It does not matter which mappings are one.
theorem KeysDistinct.of_mapping {es : Entries} {a b : Option Nat} (h : (Value.mapping es a).KeysDistinct) :
    (Value.mapping es b).KeysDistinct := by
  obtain _ | _ | ⟨hk, h⟩ := h
  exact .mapping hk h

end Value

namespace Entries

variable {es base upper : Entries} {k : Scalar} {v : Value}

@[simp]
theorem get?_nil (k : Scalar) : get? [] k = none := rfl

theorem get?_cons (e : Scalar × Value) (es : Entries) (k : Scalar) :
    get? (e :: es) k = if k.key = e.1.key then some e.2 else es.get? k := by
  rw [get?, List.find?_cons]
  by_cases h : k.key = e.1.key
  case pos => simp [h]
  case neg => simp [h, Ne.symm h, get?]

theorem mem_of_get? (h : es.get? k = some v) : ∃ j, j.key = k.key ∧ (j, v) ∈ es := by
  obtain ⟨⟨j, _⟩, he, rfl⟩ := Option.map_eq_some_iff.mp h
  have hj := List.find?_some he
  exact ⟨j, of_decide_eq_true hj, List.mem_of_find?_eq_some he⟩

theorem get?_eq_none_of_not_mem (h : k.key ∉ es.keys) : es.get? k = none := by
  cases hv : es.get? k
  case none => rfl
  case some v =>
    obtain ⟨j, hj, hm⟩ := mem_of_get? hv
    exact absurd (hj ▸ List.mem_map_of_mem hm) h

theorem get?_congr {j : Scalar} (h : j.key = k.key) : es.get? j = es.get? k := by
  rw [get?, get?, h]

theorem get?_set (es : Entries) (k : Scalar) (v : Value) (j : Scalar) :
    (es.set k v).get? j = if j.key = k.key then some v else es.get? j := by
  induction es
  case nil => exact get?_cons (k, v) [] j
  case cons e es hi =>
    rw [set]
    split
    case isTrue he  => grind [get?_cons]
    case isFalse he => grind [get?_cons]

theorem mem_set {e : Scalar × Value} (h : e ∈ es.set k v) : e ∈ es ∨ e.2 = v ∧ e.1.key = k.key := by
  induction es
  case nil =>
    obtain rfl := List.mem_singleton.mp h
    exact .inr ⟨rfl, rfl⟩
  case cons e' es hi =>
    rw [set] at h
    grind

theorem nodup_keys_set (h : es.keys.Nodup) : (es.set k v).keys.Nodup := by
  induction es
  case nil => exact List.nodup_singleton k.key
  case cons e es hi =>
    have ⟨he, h⟩ := List.nodup_cons.mp h
    rw [set]
    split
    case isTrue  => exact List.nodup_cons.mpr ⟨he, h⟩
    case isFalse hk =>
      refine List.nodup_cons.mpr ⟨fun hm => ?_, hi h⟩
      obtain ⟨e', hm, h'⟩ := List.mem_map.mp hm
      obtain hm | ⟨_, hj⟩ := mem_set hm
      · exact he (h' ▸ List.mem_map_of_mem hm)
      · exact hk (h'.symm.trans hj)

theorem keysDistinct_set {a b : Option Nat} (hb : (Value.mapping base a).KeysDistinct) (hv : v.KeysDistinct) :
    (Value.mapping (base.set k v) b).KeysDistinct := by
  obtain _ | _ | ⟨hk, hb⟩ := hb
  refine .mapping (nodup_keys_set hk) fun e he => ?_
  obtain he | ⟨rfl, _⟩ := mem_set he
  · exact hb e he
  · exact hv

theorem keysDistinct_of_get? {a : Option Nat} (h : (Value.mapping es a).KeysDistinct) (hv : es.get? k = some v) :
    v.KeysDistinct := by
  obtain _ | _ | ⟨_, h⟩ := h
  obtain ⟨j, _, hm⟩ := mem_of_get? hv
  exact h _ hm

-- Keys of `upper` are set one after the other, to what `f` makes of the value so far and the new one.
def update (f : Option Value → Value → Value) (base upper : Entries) : Entries :=
  upper.foldl (fun es (k, v) => es.set k (f (es.get? k) v)) base

theorem get?_update {f : Option Value → Value → Value} (h : upper.keys.Nodup) :
    (update f base upper).get? k = ((upper.get? k).map (f (base.get? k))).or (base.get? k) := by
  induction upper generalizing base
  case nil => rfl
  case cons e upper hi =>
    obtain ⟨j, v⟩ := e
    have ⟨hj, h⟩ := List.nodup_cons.mp h
    have hu : update f base ((j, v) :: upper) = update f (base.set j (f (base.get? j) v)) upper := rfl
    rw [hu, hi h, get?_set, get?_cons]
    by_cases hk : k.key = j.key
    case pos =>
      have hn : get? upper k = none := get?_eq_none_of_not_mem (hk ▸ hj)
      rw [if_pos hk, if_pos hk, hn, get?_congr hk]
      rfl
    case neg => rw [if_neg hk, if_neg hk]

theorem keysDistinct_update {f : Option Value → Value → Value} {a : Option Nat}
    (hb : (Value.mapping base a).KeysDistinct)
    (hf : ∀ e ∈ upper, ∀ lower?, (∀ w ∈ lower?, w.KeysDistinct) → (f lower? e.2).KeysDistinct) :
    (Value.mapping (update f base upper) a).KeysDistinct := by
  induction upper generalizing base
  case nil => exact hb
  case cons e upper hi =>
    have ⟨he, hf⟩ := List.forall_mem_cons.mp hf
    exact hi (keysDistinct_set hb (he _ fun _ => keysDistinct_of_get? hb)) hf

end Entries

-- The ways to lay a mapping over another

theorem setAll_eq_update (base upper : Entries) :
    Entries.setAll base upper = base.update (fun _ v => v) upper :=
  rfl

theorem keysDistinct_nil : (Value.mapping []).KeysDistinct :=
  .mapping List.nodup_nil nofun

theorem keysDistinct_setAll {base upper : Entries} {a : Option Nat} (hb : (Value.mapping base a).KeysDistinct)
    (hu : ∀ e ∈ upper, e.2.KeysDistinct) : (Value.mapping (Entries.setAll base upper) a).KeysDistinct := by
  rw [setAll_eq_update]
  exact Entries.keysDistinct_update hb fun e he _ _ => hu e he

-- What two mappings become depends on the way; else the upper value is taken as it is.
def combine (both : (lower : Entries) → Option Nat → (upper : Entries) → Value) : Option Value → Value → Value
  | some (.mapping lower a), .mapping upper _ => both lower a upper
  | _, v => v

def merged (lower : Entries) (_ : Option Nat) (upper : Entries) : Value :=
  .mapping (merge lower upper)

def changed (lower : Entries) (a : Option Nat) (upper : Entries) : Value :=
  .mapping (Entries.setAll lower upper) a

theorem merge_cons (base upper : Entries) (k : Scalar) (v : Value) :
    merge base ((k, v) :: upper) = merge (base.set k (combine merged (base.get? k) v)) upper := by
  rw [merge]
  cases base.get? k
  case none => rfl
  case some lower => cases lower <;> cases v <;> simp only [mergeValue, combine, merged]

theorem merge_eq_update (base upper : Entries) : merge base upper = base.update (combine merged) upper := by
  induction upper generalizing base
  case nil => rfl
  case cons e upper hi => exact (merge_cons base upper e.1 e.2).trans (hi _)

section

variable {both : Entries → Option Nat → Entries → Value} {base upper : Entries} {lower? : Option Value} {v : Value}

theorem keysDistinct_combine (hv : v.KeysDistinct)
    (hb : ∀ lower a upper b, lower? = some (.mapping lower a) → v = .mapping upper b →
      (both lower a upper).KeysDistinct) :
    (combine both lower? v).KeysDistinct := by
  unfold combine
  split
  case h_1 lower a upper b => exact hb lower a upper b rfl rfl
  case h_2                 => exact hv

theorem keysDistinct_combine_merged (hl : ∀ w ∈ lower?, w.KeysDistinct) (hv : v.KeysDistinct) :
    (combine merged lower? v).KeysDistinct := by
  refine keysDistinct_combine hv ?_
  induction hv generalizing lower?
  case mapping upper _ hk h hi =>
    rintro lower a _ _ rfl ⟨⟩
    rw [merged, merge_eq_update]
    refine Entries.keysDistinct_update (hl _ rfl).of_mapping fun e he _ hl => ?_
    exact keysDistinct_combine (h e he) (hi e he hl)
  all_goals nofun

theorem keysDistinct_combine_changed (hl : ∀ w ∈ lower?, w.KeysDistinct) (hv : v.KeysDistinct) :
    (combine changed lower? v).KeysDistinct := by
  refine keysDistinct_combine hv ?_
  rintro lower a upper b rfl rfl
  obtain _ | _ | ⟨_, hu⟩ := hv
  exact keysDistinct_setAll (hl _ rfl) hu

theorem keysDistinct_merge (hb : (Value.mapping base).KeysDistinct) (hu : (Value.mapping upper).KeysDistinct) :
    (Value.mapping (merge base upper)).KeysDistinct := by
  have hl : ∀ w ∈ some (Value.mapping base), w.KeysDistinct := by
    rintro _ ⟨⟩
    exact hb
  exact keysDistinct_combine_merged hl hu

theorem keysDistinct_update_changed (hb : (Value.mapping base).KeysDistinct)
    (hu : (Value.mapping upper).KeysDistinct) :
    (Value.mapping (base.update (combine changed) upper)).KeysDistinct := by
  obtain _ | _ | ⟨_, hu⟩ := hu
  exact Entries.keysDistinct_update hb fun e he _ hl => keysDistinct_combine_changed hl (hu e he)

end
end GherkinView.Settings
