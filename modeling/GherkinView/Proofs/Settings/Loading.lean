import GherkinView.Proofs.Libraries
import GherkinView.Proofs.Settings.Expansion
import GherkinView.Proofs.Standard

namespace GherkinView.Settings

open File Journal

theorem splitOverrides_eq {es overrides : Entries}
    (h : (es.get? overridesKey).getD (.mapping []) = .mapping overrides) :
    splitOverrides es = .ok { overrides, rest := es.filter (·.1 != overridesKey) } := by
  unfold splitOverrides
  cases hv : es.get? overridesKey
  case none =>
    rw [hv] at h
    obtain ⟨rfl, _⟩ := Value.mapping.inj h
    rfl
  case some v =>
    rw [hv] at h
    obtain rfl : v = .mapping overrides := h
    rfl

section

variable [Libraries]

-- The mapping in a file of settings. A missing file counts as an empty one.
def HasEntries (t : Tree) (p : Path) (es : Entries) : Prop :=
  if t.exists? p then readEntries t p = .ok es else es = []

-- Without an environment there is no file of it.
def HasEnvironment (s : Settings) (t : Tree) (es : Entries) : Prop :=
  match s.environment? with
  | none => es = []
  | some name => HasEntries t (s.environmentPath name) es

-- What a load reads. The overrides are a section in the file of the environment, which counts as
-- empty if it is missing, and `rest` are the other keys of that file.
structure Provides (s : Settings) (t : Tree) (scope : Variables) (main overrides rest : Entries) : Prop where
  variableFile : ∃ records, s.readVariables t = .ok (scope, records)
  main : HasEntries t s.path main
  upper : ∃ es : Entries, s.HasEnvironment t es ∧
    (Entries.get? (plainEntries es) overridesKey).getD (.mapping []) = .mapping overrides ∧
    rest = (plainEntries es).filter (·.1 != overridesKey)

variable {s : Settings} {t : Tree} {p : Path} {scope : Variables} {es main overrides rest : Entries}

theorem keysDistinct_of_readEntries (hd : Libraries.ReadsDistinct) (h : readEntries t p = .ok es) :
    (Value.mapping es).KeysDistinct := by
  unfold readEntries at h
  split at h
  case h_1 => contradiction
  case h_2 =>
    split at h
    case h_2 hr =>
      obtain rfl := Except.ok.inj h
      exact (hd _ _ hr).of_mapping
    case h_3 =>
      obtain rfl := Except.ok.inj h
      exact keysDistinct_nil
    all_goals contradiction

theorem HasEntries.keysDistinct (hd : Libraries.ReadsDistinct) (h : HasEntries t p es) :
    (Value.mapping es).KeysDistinct := by
  unfold HasEntries at h
  split at h
  case isTrue  => exact keysDistinct_of_readEntries hd h
  case isFalse => exact h ▸ keysDistinct_nil

theorem hasEntries_of_exists (hp : t.exists? p = true) (h : (readEntries t p).toOption = some es) :
    HasEntries t p es := by
  rw [HasEntries, if_pos hp]
  cases hr : readEntries t p <;> rw [hr] at h
  case error   => contradiction
  case ok read => exact congrArg Except.ok (Option.some.inj h)

theorem HasEntries.readMain_eq (h : HasEntries t s.path main) : s.readMain t = .ok main := by
  unfold HasEntries at h
  unfold readMain
  split at h
  case isTrue he  => rw [if_pos he, h]
  case isFalse he => rw [if_neg he, h]

theorem HasEnvironment.keysDistinct (hd : Libraries.ReadsDistinct) (h : s.HasEnvironment t es) :
    (Value.mapping es).KeysDistinct := by
  unfold HasEnvironment at h
  split at h
  case h_1 => exact h ▸ keysDistinct_nil
  case h_2 => exact HasEntries.keysDistinct hd h

theorem HasEnvironment.readUpper_eq (h : s.HasEnvironment t es)
    (ho : (Entries.get? (plainEntries es) overridesKey).getD (.mapping []) = .mapping overrides) :
    ∃ records, s.readUpper t =
      .ok ({ overrides, rest := (plainEntries es).filter (·.1 != overridesKey) }, records) := by
  unfold HasEnvironment at h
  unfold readUpper
  cases hn : s.environment? <;> rw [hn] at h
  case none =>
    obtain rfl : es = [] := h
    obtain ⟨rfl, _⟩ := Value.mapping.inj ho
    exact ⟨[], rfl⟩
  case some name =>
    have h : HasEntries t (s.environmentPath name) es := h
    unfold HasEntries at h
    dsimp only
    split at h
    case isTrue hp =>
      rw [if_pos hp, h]
      exact ⟨[], congrArg (Except.map (·, [])) (splitOverrides_eq ho)⟩
    case isFalse hp =>
      obtain rfl := h
      obtain ⟨rfl, _⟩ := Value.mapping.inj ho
      rw [if_neg hp]
      exact ⟨_, rfl⟩

theorem Provides.keysDistinct (hd : Libraries.ReadsDistinct) (h : s.Provides t scope main overrides rest) :
    (Value.mapping overrides).KeysDistinct ∧ (Value.mapping rest).KeysDistinct := by
  obtain ⟨es, he, ho, rfl⟩ := h.upper
  have hp : (Value.mapping (plainEntries es)).KeysDistinct := keysDistinct_plain (he.keysDistinct hd)
  have ⟨hk, hv⟩ : (Entries.keys (plainEntries es)).Nodup ∧ ∀ e ∈ plainEntries es, e.2.KeysDistinct := by
    cases hp
    case mapping hk hv => exact ⟨hk, hv⟩
  constructor
  case left =>
    cases hv : Entries.get? (plainEntries es) overridesKey <;> rw [hv] at ho
    case none   => exact ho ▸ keysDistinct_nil
    case some v => exact ho ▸ Entries.keysDistinct_of_get? hp hv
  case right =>
    exact .mapping (hk.sublist (List.filter_sublist.map _)) fun e hm => hv e (List.mem_of_mem_filter hm)

-- No mapping in the overrides is shared.
theorem Provides.not_mentions (h : s.Provides t scope main overrides rest) (a : Nat) :
    ∀ e ∈ overrides, ¬e.2.Mentions a := by
  obtain ⟨es, _, ho, _⟩ := h.upper
  rw [get?_plainEntries] at ho
  cases hv : es.get? overridesKey <;> rw [hv] at ho
  case none =>
    obtain ⟨rfl, _⟩ := Value.mapping.inj ho
    exact nofun
  case some v =>
    have ho : v.plain = .mapping overrides := ho
    intro e hm hn
    have hm : (Value.mapping overrides).Mentions a := .entry hm hn
    exact v.not_mentions_plain (ho ▸ hm)

theorem Provides.scope_eq (hk : Libraries.KeepsVariables) (h : s.Provides t scope main overrides rest)
    (name : Text) : scope.get? name = (s.scope.get? name).or (scope.get? name) := by
  cases hv : s.scope.get? name
  case none => rfl
  case some v =>
    obtain ⟨records, hr⟩ := h.variableFile
    unfold readVariables at hr
    split at hr
    case h_2 =>
      obtain ⟨rfl, _⟩ := Prod.mk.inj (Except.ok.inj hr)
      exact hv
    case h_1 p _ =>
      cases ht : t.readText p <;> rw [ht] at hr
      case error => contradiction
      case ok text =>
        have hs : (Libraries.loadVariables s.scope text).1 = scope := congrArg Prod.fst (Except.ok.inj hr)
        exact hs ▸ hk s.scope text name v hv

theorem Provides.load_eq (h : s.Provides t scope main overrides rest) :
    (s.load t).failure = none ∧ (s.load t).settings.current =
      substituteEntries scope (merge (override (merge defaults main) overrides) rest) := by
  obtain ⟨records, hv⟩ := h.variableFile
  obtain ⟨es, he, ho, rfl⟩ := h.upper
  have ⟨records', hu⟩ := he.readUpper_eq ho
  have hm : ({ s with scope } : Settings).readMain t = .ok main := h.main.readMain_eq
  have hu : ({ s with scope } : Settings).readUpper t =
    .ok ({ overrides, rest := (plainEntries es).filter (·.1 != overridesKey) }, records') := hu
  unfold load
  rw [hv]
  dsimp only
  unfold loadLayers
  rw [hm]
  dsimp only
  rw [hu]
  exact ⟨rfl, rfl⟩

end

theorem Value.settle_finding_append (v : Value) (ks : List Text) (path : List Scalar) :
    (v.finding (ks.map .text ++ path)).settle = (found (v.at? ks) path).settle := by
  induction ks generalizing v
  case nil => rfl
  case cons k ks hi =>
    cases v
    case mapping es a =>
      have hf (path : List Scalar) :
          (mapping es a).finding (.text k :: path) = found (Entries.get? es (.text k)) path := rfl
      rw [List.map_cons, List.cons_append, hf, at?]
      cases Entries.get? es (.text k)
      case none   => rfl
      case some w => exact hi w
    all_goals rfl

theorem Value.keysDistinct_of_at? {v w : Value} {ks : List Text} (h : v.KeysDistinct) (hw : v.at? ks = some w) :
    w.KeysDistinct := by
  induction ks generalizing v
  case nil => exact Option.some.inj hw ▸ h
  case cons k ks hi =>
    cases v
    case mapping es a =>
      rw [at?] at hw
      cases hv : Entries.get? es (.text k) <;> rw [hv] at hw
      case none   => contradiction
      case some v => exact hi (Entries.keysDistinct_of_get? h hv) hw
    all_goals contradiction

theorem keysDistinct_defaults : (Value.mapping defaults).KeysDistinct := by
  have ht (t : Text) : (Value.text t).KeysDistinct := .scalar _
  have hn : Value.null.KeysDistinct := .scalar .null
  refine .mapping (by decide) ?_
  simp only [defaults, List.forall_mem_cons, List.not_mem_nil, false_implies, implies_true, and_true]
  refine ⟨.mapping (by decide) ?output, .mapping (by decide) ?parser, .mapping (by decide) ?logging,
    .mapping (by decide) ?watch⟩
  case output  => simp [ht]
  case parser  => exact List.forall_mem_singleton.mpr <| .list (by simp [ht])
  case logging => simp [ht, hn]
  case watch   => exact List.forall_mem_singleton.mpr <| .scalar _

def keyPath (key : Text) : List Scalar :=
  (key.splitOn '.').map .text

-- The layers say what is there, path by path, and the default counts if nothing is. As a mapping
-- has each key once, the paths tell all of a value but the order of its keys.
theorem get_load_layered [Libraries] (hd : Libraries.ReadsDistinct) (hk : Libraries.KeepsVariables) {s : Settings}
    {t : Tree} {scope : Variables} {main overrides rest : Entries} (h : s.Provides t scope main overrides rest)
    (hs : (merge defaults main).Unshared overrides) (key : Text) :
    (s.load t).failure = none ∧ ∃ v? : Option Value,
      (∀ default, (s.load t).settings.get key default = v?.getD default) ∧
        (v? = none ↔ (layered defaults main overrides rest (keyPath key)).settle = .silent) ∧
        (∀ v, v? = some v → v.KeysDistinct) ∧
        ∀ path, (layered defaults main overrides rest (keyPath key ++ path)).Expands
          (fun name => (s.scope.get? name).or (scope.get? name)) (found v? path) := by
  have ⟨hf, hc⟩ := h.load_eq
  have hm := h.main.keysDistinct hd
  have hb := keysDistinct_merge keysDistinct_defaults hm
  have ⟨ho, hr⟩ := h.keysDistinct hd
  let v? := (Value.mapping (s.load t).settings.current).get? key
  have he (path : List Scalar) : (layered defaults main overrides rest (keyPath key ++ path)).Expands
      (fun name => (s.scope.get? name).or (scope.get? name)) (found v? path) := by
    have he := expands_substitute scope
      (.mapping (merge (override (merge defaults main) overrides) rest)) (keyPath key ++ path)
    rw [substitute, ← hc, funext (h.scope_eq hk)] at he
    have hl := settle_finding_layers keysDistinct_defaults hm ho hr hs h.not_mentions (keyPath key ++ path)
    exact he.of_settle hl.symm (Value.settle_finding_append _ _ path).symm
  have hn := (he []).settle_eq_silent_iff.trans settle_found_nil
  rw [List.append_nil] at hn
  have hv : (Value.mapping (s.load t).settings.current).KeysDistinct := by
    obtain _ | _ | ⟨hbk, _⟩ := id hb
    obtain _ | _ | ⟨hok, _⟩ := id ho
    have hl := keysDistinct_update_changed hb ho
    rw [← override_eq_update hbk hok hs h.not_mentions] at hl
    rw [hc, ← substitute]
    exact keysDistinct_substitute _ (keysDistinct_merge hl hr)
  exact ⟨hf, v?, fun _ => rfl, hn.symm, fun _ => Value.keysDistinct_of_at? hv, he⟩

namespace Layered

open Standard

def filesWith (main production : Text) : Tree where
  entries := [
    (["config.yaml".toList], .file (Utf8.encode main) (.fresh 1)),
    (["environments".toList], .directory (.fresh 2)),
    (["environments".toList, "prod.yaml".toList], .file (Utf8.encode production) (.fresh 3)),
    ([".env".toList], .file (Utf8.encode "A=x".toList) (.fresh 4))]

-- Two keys share a mapping that the overrides do not change.
def files : Tree :=
  filesWith ("output: &o here\nfirst: &f \x7bk: *o\x7d\nsecond: *f\n".toList ++
      "parser: \x7bpatterns: ['$\x7bA\x7d', b], depth: \x7bk: 1\x7d\x7d".toList)
    ("overrides: \x7bparser: \x7bdepth: \x7bj: '$\x7bB\x7d'\x7d\x7d\x7d\n".toList ++
      "logging: \x7bfile: x\x7d".toList)

def settings : Settings where
  path := .ofText "config.yaml".toList
  environment := some "prod".toList
  scope := [("B".toList, "$\x7bA\x7d".toList)]

def known : Variables :=
  [("A".toList, "x".toList), ("B".toList, "$\x7bA\x7d".toList)]

def common : Value :=
  .mapping [(.text "k".toList, .text "here".toList)] (some 68)

def parser : Entries :=
  [(.text "patterns".toList, .list [.text "$\x7bA\x7d".toList, .text "b".toList]),
    (.text "depth".toList, .mapping [(.text "k".toList, .scalar (.int 1))])]

def main : Entries :=
  [(.text "output".toList, .text "here".toList),
    (.text "first".toList, common), (.text "second".toList, common),
    (.text "parser".toList, .mapping parser)]

def overrides : Entries :=
  [(.text "parser".toList, .mapping [
    (.text "depth".toList, .mapping [(.text "j".toList, .text "$\x7bB\x7d".toList)])])]

def rest : Entries :=
  [(.text "logging".toList, .mapping [(.text "file".toList, .text "x".toList)])]

theorem hasEntries_main : HasEntries files settings.path main :=
  hasEntries_of_exists (by decide +kernel) (by decide +kernel)

theorem hasEntries_production :
    HasEntries files (settings.environmentPath "prod".toList) ((overridesKey, .mapping overrides) :: rest) :=
  hasEntries_of_exists (by decide +kernel) (by decide +kernel)

theorem provides : settings.Provides files known main overrides rest :=
  ⟨⟨[], rfl⟩, hasEntries_main, (overridesKey, .mapping overrides) :: rest, hasEntries_production, rfl, by decide⟩

-- The section that the overrides change has been merged into a new mapping.
theorem unshared : (merge defaults main).Unshared overrides := by
  rintro k lower a hl ⟨upper, b, hu⟩
  have hk : (Scalar.text "parser".toList).key = k.key := by
    by_contra hk
    rw [overrides, Entries.get?_cons, if_neg (Ne.symm hk)] at hu
    contradiction
  have hn : Entries.get? (merge defaults main) (.text "parser".toList) = some (.mapping parser) := by decide +kernel
  rw [← Entries.get?_congr hk, hn] at hl
  obtain ⟨_, ha⟩ := Value.mapping.inj (Option.some.inj hl)
  contradiction

end Layered

-- The override replaces `parser.depth` as a whole, so there is no `k` any more.
open Layered Standard in
theorem get_load_replaced :
    Libraries.ReadsDistinct ∧ Libraries.KeepsVariables ∧ (merge defaults main).Unshared overrides ∧
      settings.Provides files known main overrides rest ∧ (settings.load files).failure = none ∧
      ∀ default, (settings.load files).settings.get "parser.depth.k".toList default = default := by
  have ⟨hf, v?, hg, hn, _, _⟩ :=
    get_load_layered readsDistinct keepsVariables provides unshared "parser.depth.k".toList
  have hv : v? = none := hn.mpr (by decide +kernel)
  exact ⟨readsDistinct, keepsVariables, unshared, provides, hf, fun default => (hg default).trans (hv ▸ rfl)⟩

namespace Layered

open Standard

-- Of the keys that share a mapping the overrides mention one.
def shared : Tree :=
  filesWith "project: &p \x7bname: BDD Bridge\x7d\nreport: *p\n".toList
    "overrides: \x7breport: \x7bname: CI\x7d\x7d".toList

def named (name : String) (a : Option Nat := none) : Value :=
  .mapping [(.text "name".toList, .text name.toList)] a

def sharing : Entries :=
  [(.text "project".toList, named "BDD Bridge" (some 33)), (.text "report".toList, named "BDD Bridge" (some 33))]

def renamed : Entries :=
  [(.text "report".toList, named "CI")]

theorem hasEntries_sharing : HasEntries shared settings.path sharing :=
  hasEntries_of_exists (by decide +kernel) (by decide +kernel)

theorem hasEntries_renamed :
    HasEntries shared (settings.environmentPath "prod".toList) [(overridesKey, .mapping renamed)] :=
  hasEntries_of_exists (by decide +kernel) (by decide +kernel)

end Layered

-- Nothing is said of the project above the main file, but the new name of the report is its name, too.
open Layered Standard in
theorem get_load_shared :
    settings.Provides shared known sharing renamed [] ∧
      layered defaults sharing renamed [] (keyPath "project.name".toList) = .plain (.text "BDD Bridge".toList) ∧
      (settings.load shared).settings.get "project.name".toList .null = .text "CI".toList :=
  ⟨⟨⟨[], rfl⟩, hasEntries_sharing, [(overridesKey, .mapping renamed)], hasEntries_renamed, rfl, by decide⟩,
    by decide +kernel, by decide +kernel⟩

end GherkinView.Settings
