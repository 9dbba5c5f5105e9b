import GherkinView.Proofs.Settings.Layering

namespace GherkinView.Settings

def reference (name : Text) : Text :=
  '$' :: '{' :: (name ++ ['}'])

theorem referenced?_eq_some_iff {t name : Text} : referenced? t = some name ↔ t = reference name := by
  constructor
  case mp =>
    intro h
    unfold referenced? at h
    split at h
    case h_1 r =>
      obtain ⟨hl, h⟩ := Option.ite_none_right_eq_some.mp h
      obtain rfl := Option.some.inj h
      rw [reference, List.dropLast_append_getLast? _ hl]
    case h_2 => contradiction
  case mpr =>
    rintro rfl
    simp [referenced?, reference]

theorem reference_inj {name other : Text} (h : reference name = reference other) : name = other :=
  Option.some.inj <| (referenced?_eq_some_iff.mpr rfl).symm.trans (referenced?_eq_some_iff.mpr h)

-- A reference to a variable that is set becomes its value. Lists and mappings are expanded value by
-- value, with the keys as they are.
inductive Expanded (value? : Text → Option Text) : Value → Value → Prop
  | named {name t} (h : value? name = some t) : Expanded value? (.text (reference name)) (.text t)
  | text {t} (h : ∀ name, t = reference name → value? name = none) :
    Expanded value? (.text t) (.text t)
  | scalar {s : Scalar} (h : ∀ t, s ≠ .text t) : Expanded value? (.scalar s) (.scalar s)
  | list {items items'} (h : List.Forall₂ (Expanded value?) items items') :
    Expanded value? (.list items) (.list items')
  | mapping {es es' : Entries} {a} (hk : es.map Prod.fst = es'.map Prod.fst)
    (h : List.Forall₂ (Expanded value?) (es.map Prod.snd) (es'.map Prod.snd)) :
    Expanded value? (.mapping es a) (.mapping es')

theorem expanded_text (vs : Variables) (t : Text) :
    Expanded vs.get? (.text t) (.text (substituteText vs t)) := by
  rw [substituteText]
  cases hr : referenced? t
  case none =>
    refine .text fun name h => ?_
    rw [referenced?_eq_some_iff.mpr h] at hr
    contradiction
  case some name =>
    obtain rfl := referenced?_eq_some_iff.mp hr
    rw [Option.bind_some]
    cases hv : vs.get? name
    case none       => exact .text fun other h => (reference_inj h) ▸ hv
    case some value => exact .named hv

theorem substituteEntries_eq_map (vs : Variables) (es : Entries) :
    substituteEntries vs es = es.map fun e => (e.1, substitute vs e.2) := by
  induction es
  case nil => rw [substituteEntries, List.map_nil]
  case cons e es hi => rw [substituteEntries, hi, List.map_cons]

theorem map_fst_substituteEntries (vs : Variables) (es : Entries) :
    es.map Prod.fst = (substituteEntries vs es).map Prod.fst := by
  rw [substituteEntries_eq_map, List.map_map]
  rfl

theorem keys_substituteEntries (vs : Variables) (es : Entries) :
    (Entries.keys (substituteEntries vs es)) = es.keys := by
  rw [substituteEntries_eq_map, Entries.keys, List.map_map]
  rfl

theorem get?_substituteEntries (vs : Variables) (es : Entries) (k : Scalar) :
    (substituteEntries vs es).get? k = (es.get? k).map (substitute vs) := by
  induction es
  case nil => rw [substituteEntries, Entries.get?_nil, Option.map_none]
  case cons e es hi =>
    rw [substituteEntries, Entries.get?_cons, Entries.get?_cons, hi]
    split <;> rfl

mutual

theorem expanded_substitute (vs : Variables) : ∀ v, Expanded vs.get? v (substitute vs v)
  | .scalar (.text t) => expanded_text vs t
  | .scalar .null | .scalar (.bool _) | .scalar (.int _) | .scalar (.number _) | .scalar (.moment _) => .scalar nofun
  | .list items => .list (expanded_substituteItems vs items)
  | .mapping es _ => .mapping (map_fst_substituteEntries vs es) (expanded_substituteEntries vs es)

theorem expanded_substituteItems (vs : Variables) :
    ∀ items, List.Forall₂ (Expanded vs.get?) items (substituteItems vs items)
  | [] => .nil
  | v :: items => .cons (expanded_substitute vs v) (expanded_substituteItems vs items)

theorem expanded_substituteEntries (vs : Variables) :
    ∀ es : Entries, List.Forall₂ (Expanded vs.get?) (es.map Prod.snd) ((substituteEntries vs es).map Prod.snd)
  | [] => .nil
  | (_, v) :: es => .cons (expanded_substitute vs v) (expanded_substituteEntries vs es)

end

theorem substituteItems_eq_map (vs : Variables) (items : List Value) :
    substituteItems vs items = items.map (substitute vs) := by
  induction items
  case nil => rw [substituteItems, List.map_nil]
  case cons v items hi => rw [substituteItems, hi, List.map_cons]

theorem keysDistinct_substitute (vs : Variables) {v : Value} (h : v.KeysDistinct) :
    (substitute vs v).KeysDistinct := by
  induction h
  case scalar s => cases s <;> exact .scalar _
  case list hi =>
    rw [substitute, substituteItems_eq_map]
    exact .list (List.forall_mem_map.mpr hi)
  case mapping es _ hk _ hi =>
    rw [← keys_substituteEntries vs] at hk
    refine .mapping hk ?_
    rw [substituteEntries_eq_map]
    exact List.forall_mem_map.mpr hi

-- What is found at a path, before and after.
inductive Finding.Expands (value? : Text → Option Text) : Finding → Finding → Prop
  | absent {f g} (hf : f.settle = silent) (hg : g.settle = silent) : Expands value? f g
  | mapping : Expands value? mapping mapping
  | plain {v w} (h : Expanded value? v w) : Expands value? (plain v) (plain w)

theorem Finding.Expands.of_settle {value? : Text → Option Text} {f f' g g' : Finding}
    (h : Expands value? f g) (hf : f'.settle = f.settle) (hg : g'.settle = g.settle) : Expands value? f' g' := by
  cases h
  case absent h h' => exact .absent (hf.trans h) (hg.trans h')
  case mapping =>
    rw [eq_of_settle hf nofun, eq_of_settle hg nofun]
    exact .mapping
  case plain h =>
    rw [eq_of_settle hf nofun, eq_of_settle hg nofun]
    exact .plain h

theorem Finding.Expands.settle_eq_silent_iff {value? : Text → Option Text} {f g : Finding}
    (h : Expands value? f g) : f.settle = silent ↔ g.settle = silent := by
  cases h
  case absent h h' => exact iff_of_true h h'
  case mapping     => rfl
  case plain       => exact iff_of_false nofun nofun

theorem expands_substitute (vs : Variables) (v : Value) (path : List Scalar) :
    (v.finding path).Expands vs.get? ((substitute vs v).finding path) := by
  induction path generalizing v
  case nil =>
    have h := expanded_substitute vs v
    obtain (_ | _ | _ | _ | _ | _) | _ | _ := v
    case mapping => exact .mapping
    all_goals exact .plain h
  case cons k ks hi =>
    obtain (_ | _ | _ | _ | _ | _) | _ | ⟨es, a⟩ := v
    case mapping =>
      have hf (es : Entries) (a : Option Nat) :
          (Value.mapping es a).finding (k :: ks) = found (es.get? k) ks := rfl
      rw [substitute, hf, hf, get?_substituteEntries]
      cases Entries.get? es k
      case none   => exact .absent rfl rfl
      case some w => exact hi w
    all_goals exact .absent rfl rfl

end GherkinView.Settings
