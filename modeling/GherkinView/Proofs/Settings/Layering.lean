import GherkinView.Proofs.Settings.Sharing
import GherkinView.Settings.Loading

namespace GherkinView.Settings

-- What a value says of a path of keys: nothing, if a mapping on the path lacks the next key; that it
-- is hidden, if keys are left where there is no mapping; or what stands at its end.
inductive Finding
  | silent
  | hidden
  | mapping
  | plain (v : Value)
  deriving DecidableEq

namespace Finding

def atop : (upper lower : Finding) → Finding
  | silent, lower => lower
  | upper, _ => upper

-- Nothing is let through from below.
def opaquely : Finding → Finding
  | silent => hidden
  | f => f

-- Once there are no more layers below, what is not said is not there.
def settle : Finding → Finding
  | hidden => silent
  | f => f

theorem eq_of_settle {f g : Finding} (h : f.settle = g.settle) (hg : g.settle ≠ silent) : f = g := by
  cases f <;> cases g <;> simp_all [settle]

theorem settle_atop {f l l' : Finding} (h : l.settle = l'.settle) : (f.atop l).settle = (f.atop l').settle := by
  cases f
  case silent => exact h
  all_goals rfl

@[simp]
theorem settle_opaquely_atop (f l : Finding) : (f.opaquely.atop l).settle = f.settle := by
  cases f <;> rfl

end Finding

def Value.finding : Value → List Scalar → Finding
  | .mapping _ _, [] => .mapping
  | v, [] => .plain v
  | .mapping es _, k :: ks => (Entries.get? es k).elim .silent (finding · ks)
  | _, _ :: _ => .hidden

-- Without a value nothing is said.
def found (v? : Option Value) (path : List Scalar) : Finding :=
  v?.elim .silent (·.finding path)

namespace Entries

def finding (es : Entries) (path : List Scalar) : Finding :=
  (Value.mapping es).finding path

def overriding (es : Entries) (path : List Scalar) : Finding :=
  match es.finding (path.take 2) with
  | .silent => .silent
  | _ => (es.finding path).opaquely

end Entries

def layered (defaults main overrides rest : Entries) (path : List Scalar) : Finding :=
  (rest.finding path).atop <| (overrides.overriding path).atop <| (main.finding path).atop <|
    defaults.finding path

-- What `overriding` says below the key of a section.
def Value.overridingSection : Value → List Scalar → Finding
  | .mapping es _, k :: ks => (Entries.get? es k).elim .silent fun v => (v.finding ks).opaquely
  | v, ks => v.finding ks

section

variable {es base upper : Entries} {k : Scalar} {ks path : List Scalar} {v : Value} {v? : Option Value}

theorem Entries.finding_cons (es : Entries) (k : Scalar) (ks : List Scalar) :
    es.finding (k :: ks) = found (es.get? k) ks :=
  rfl

theorem Entries.overriding_cons (es : Entries) (k : Scalar) (ks : List Scalar) :
    es.overriding (k :: ks) = (es.get? k).elim .silent (·.overridingSection ks) := by
  rw [overriding, List.take_succ_cons, finding_cons, finding_cons]
  cases es.get? k
  case none => rfl
  case some v =>
    cases v <;> cases ks
    case mapping.cons es a k ks =>
      have hf (ks : List Scalar) : found (some (.mapping es a)) (k :: ks) = found (Entries.get? es k) ks := rfl
      simp only [List.take_succ_cons, hf, Option.elim, Value.overridingSection]
      cases Entries.get? es k
      case none   => rfl
      case some w => cases w <;> rfl
    all_goals rfl

-- A mapping lies over another if under each of its keys the value lies over what was there.
theorem settle_finding_update {f : Option Value → Value → Value} (say : Value → List Scalar → Finding)
    (hk : upper.keys.Nodup)
    (hf : ∀ j v, (j, v) ∈ upper →
      ((f (base.get? k) v).finding ks).settle = ((say v ks).atop (found (base.get? k) ks)).settle) :
    ((base.update f upper).finding (k :: ks)).settle =
      (((upper.get? k).elim .silent (say · ks)).atop (base.finding (k :: ks))).settle := by
  rw [Entries.finding_cons, Entries.finding_cons, Entries.get?_update hk]
  cases hv : upper.get? k
  case none   => rfl
  case some v =>
    obtain ⟨j, _, hm⟩ := Entries.mem_of_get? hv
    exact hf j v hm

theorem eq_of_finding_eq_silent (h : v.finding path = .silent) :
    (∃ es a, v = .mapping es a) ∧ ∃ k ks, path = k :: ks := by
  cases v <;> cases path
  case mapping.cons es a k ks => exact ⟨⟨es, a, rfl⟩, k, ks, rfl⟩
  all_goals contradiction

theorem settle_found_cons (h : ∀ es a, v? ≠ some (.mapping es a)) (k : Scalar) (ks : List Scalar) :
    (found v? (k :: ks)).settle = .silent := by
  obtain _ | _ | _ | ⟨es, a⟩ := v?
  case some.mapping => exact absurd rfl (h es a)
  all_goals rfl

theorem settle_found_nil : (found v? []).settle = .silent ↔ v? = none := by
  obtain _ | _ | _ | _ := v? <;> simp [found, Value.finding, Finding.settle]

-- Other than two mappings, what is above hides what is below.
theorem settle_finding_atop (h : (∀ es a, v ≠ .mapping es a) ∨ ∀ es a, v? ≠ some (.mapping es a)) {f : Finding}
    (hf : f = v.finding path ∨ f = (v.finding path).opaquely) :
    (v.finding path).settle = (f.atop (found v? path)).settle := by
  cases hv : v.finding path
  case silent =>
    obtain ⟨⟨es, a, rfl⟩, k, ks, rfl⟩ := eq_of_finding_eq_silent hv
    have hl := settle_found_cons (h.resolve_left (absurd rfl <| · es a)) k ks
    obtain rfl | rfl := hf <;> rw [hv]
    · exact hl.symm
    · rfl
  all_goals obtain rfl | rfl := hf <;> rw [hv] <;> rfl

theorem settle_finding_combine {both : Entries → Option Nat → Entries → Value}
    {say : Value → List Scalar → Finding} (hm : ∀ lower a upper, (both lower a upper).finding [] = .mapping)
    (hs : ∀ v path, say v path = v.finding path ∨ say v path = (v.finding path).opaquely)
    (hb : ∀ lower a upper b k ks, v? = some (.mapping lower a) → v = .mapping upper b → path = k :: ks →
      ((both lower a upper).finding path).settle = ((say v path).atop (Entries.finding lower path)).settle) :
    ((combine both v? v).finding path).settle = ((say v path).atop (found v? path)).settle := by
  unfold combine
  split
  case h_1 lower a upper b =>
    cases path
    case nil       => obtain h | h := hs (.mapping upper b) [] <;> rw [hm, h] <;> rfl
    case cons k ks => exact hb lower a upper b k ks rfl rfl rfl
  case h_2 h =>
    refine settle_finding_atop ?_ (hs v path)
    by_contra hn
    push Not at hn
    have ⟨⟨upper, b, hu⟩, lower, a, hl⟩ := hn
    exact h lower a upper b hl hu

theorem settle_finding_merged (v? : Option Value) (h : v.KeysDistinct) (path : List Scalar) :
    ((combine merged v? v).finding path).settle = ((v.finding path).atop (found v? path)).settle := by
  induction path generalizing v v?
  case nil => exact settle_finding_combine (fun _ _ _ => rfl) (fun _ _ => .inl rfl) nofun
  case cons k ks hi =>
    refine settle_finding_combine (fun _ _ _ => rfl) (fun _ _ => .inl rfl) ?_
    rintro lower _ upper _ _ _ rfl rfl ⟨⟩
    obtain _ | _ | ⟨hk, h⟩ := h
    rw [merged, merge_eq_update]
    exact settle_finding_update Value.finding hk fun j w hw => hi _ (h (j, w) hw)

theorem finding_overridingSection (v : Value) (path : List Scalar) :
    v.overridingSection path = v.finding path ∨ v.overridingSection path = (v.finding path).opaquely := by
  cases v <;> cases path
  case mapping.cons es a k ks =>
    rw [Value.overridingSection, Value.finding]
    cases Entries.get? es k
    case none   => exact .inl rfl
    case some w => exact .inr rfl
  all_goals exact .inl rfl

theorem settle_finding_changed (h : v.KeysDistinct) :
    ((combine changed v? v).finding path).settle =
      ((v.overridingSection path).atop (found v? path)).settle := by
  refine settle_finding_combine (fun _ _ _ => rfl) finding_overridingSection ?_
  rintro lower a upper _ k ks rfl rfl rfl
  obtain _ | _ | ⟨hk, _⟩ := h
  have hc : (changed lower a upper).finding (k :: ks) =
      (Entries.update (fun _ v => v) lower upper).finding (k :: ks) := rfl
  rw [hc]
  exact settle_finding_update (fun w ks => (w.finding ks).opaquely) hk fun _ w _ =>
    (Finding.settle_opaquely_atop _ _).symm

end

-- However deep the mappings are, the layers are put together as they say, if no mapping that the overrides change
-- stands at another place.
theorem settle_finding_layers {defaults main overrides rest : Entries}
    (hd : (Value.mapping defaults).KeysDistinct) (hm : (Value.mapping main).KeysDistinct)
    (ho : (Value.mapping overrides).KeysDistinct) (hr : (Value.mapping rest).KeysDistinct)
    (hs : (merge defaults main).Unshared overrides) (hn : ∀ a, ∀ e ∈ overrides, ¬e.2.Mentions a)
    (path : List Scalar) :
    ((merge (override (merge defaults main) overrides) rest).finding path).settle =
      (layered defaults main overrides rest path).settle := by
  have hl := settle_finding_merged (some (.mapping defaults)) hm path
  have ho : ((override (merge defaults main) overrides).finding path).settle =
      ((overrides.overriding path).atop ((merge defaults main).finding path)).settle := by
    cases path
    case nil => rfl
    case cons k ks =>
      obtain _ | _ | ⟨hb, _⟩ := keysDistinct_merge hd hm
      obtain _ | _ | ⟨hk, h⟩ := ho
      rw [override_eq_update hb hk hs hn, Entries.overriding_cons]
      exact settle_finding_update Value.overridingSection hk fun j v hv => settle_finding_changed (h (j, v) hv)
  have hu := settle_finding_merged (some (.mapping (override (merge defaults main) overrides))) hr path
  exact hu.trans <| Finding.settle_atop <| ho.trans <| Finding.settle_atop hl

end GherkinView.Settings
