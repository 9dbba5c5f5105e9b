import Mathlib.Data.List.Induction
import Mathlib.Data.List.Nodup
import GherkinView.CommandLine.Convert
import GherkinView.Proofs.File.Targets

namespace GherkinView.CommandLine

open File File.Tree

-- What a script is converted to, and where that goes. Both follow from the tree that the run begins with
-- and from the targets that are taken when the turn of the script comes.
structure Output where
  source : Path
  path : Path
  content : Text

variable {job : Job} {t t' : Tree} {taken taken' : List Path}
variable {source : Path} {sources : List Path} {o : Output} {outs : List Output} {place : Place}

namespace Job

def output? (job : Job) (t : Tree) (taken : List Path) (source : Path) : Option Output :=
  match sourceText t source, job.place t taken source with
  | .ok text, .ok place =>
    some ⟨source, place.path, (documentOf text).write (some source.name) job.format⟩
  | _, _ => none

def extend (job : Job) (t : Tree) (outs : List Output) (source : Path) : List Output :=
  outs ++ (job.output? t (outs.map Output.path) source).toList

-- The outputs of all scripts that can be read, in order.
def outputs (job : Job) (t : Tree) (sources : List Path) : List Output :=
  sources.foldl (job.extend t) []

-- When the turn of the script comes, its target is taken, and so is the one with its suffix.
def Crowds (job : Job) (t : Tree) (before : List Path) (source : Path) : Prop :=
  (sourceText t source).toOption.isSome ∧
    ∀ withSuffix, ∃ p ∈ (job.outputs t before).map Output.path,
      target t source job.root job.out job.format withSuffix = .ok p

theorem target_congr (hd : t'.isDirectory job.root = t.isDirectory job.root) (withSuffix : Bool) :
    target t' source job.root job.out job.format withSuffix =
      target t source job.root job.out job.format withSuffix := by
  simp only [target, placeBelow, hd]

theorem place_congr (hd : t'.isDirectory job.root = t.isDirectory job.root)
    (ht : ∀ p, p ∈ taken' ↔ p ∈ taken) : job.place t' taken' source = job.place t taken source := by
  have hc (p : Path) : taken'.contains p = taken.contains p := by
    rw [Bool.eq_iff_iff, List.contains_iff_mem, List.contains_iff_mem, ht]
  simp only [place, target_congr hd, hc]

theorem place_eq_ok (h : job.place t taken source = .ok place) :
    ∃ plain, target t source job.root job.out job.format false = .ok plain ∧
      if plain ∈ taken then target t source job.root job.out job.format true = .ok place.path
      else place.path = plain := by
  have ⟨plain, hp, h⟩ := bind_eq_ok.mp h
  refine ⟨plain, hp, ?_⟩
  split at h
  case isTrue hc =>
    have ⟨renamed, hr, h⟩ := bind_eq_ok.mp h
    cases h
    rwa [if_pos (List.contains_iff_mem.mp hc)]
  case isFalse hc =>
    cases h
    rw [if_neg fun hm => hc (List.contains_iff_mem.mpr hm)]

theorem output?_eq_some (h : job.output? t taken source = some o) :
    ∃ text place, sourceText t source = .ok text ∧ job.place t taken source = .ok place ∧
      o = ⟨source, place.path, (documentOf text).write (some source.name) job.format⟩ := by
  rw [output?] at h
  split at h
  case h_1 ht hp => cases h; exact ⟨_, _, ht, hp, rfl⟩
  case h_2       => contradiction

theorem target_of_place (h : job.place t taken source = .ok place) :
    ∃ withSuffix, target t source job.root job.out job.format withSuffix = .ok place.path := by
  have ⟨plain, ht, hc⟩ := place_eq_ok h
  split at hc
  case isTrue  => exact ⟨true, hc⟩
  case isFalse => exact ⟨false, hc ▸ ht⟩

theorem target_of_output? (h : job.output? t taken source = some o) :
    ∃ withSuffix, target t source job.root job.out job.format withSuffix = .ok o.path := by
  have ⟨_, place, _, hp, ho⟩ := output?_eq_some h
  rw [ho]
  exact target_of_place hp

theorem crowds_iff {before : List Path} : job.Crowds t before source ↔
    ∃ o, job.output? t ((job.outputs t before).map Output.path) source = some o ∧
      o.path ∈ (job.outputs t before).map Output.path := by
  generalize htk : (job.outputs t before).map Output.path = taken
  rw [Crowds, htk]
  constructor
  case mp =>
    intro ⟨hs, hc⟩
    have ⟨plain, hm, hp⟩ := hc false
    have ⟨renamed, hm', hr⟩ := hc true
    cases ht : sourceText t source
    case error => simp [ht, Except.toOption] at hs
    case ok text =>
      have he : job.place t taken source = .ok ⟨renamed, some plain⟩ := by
        refine bind_eq_ok.mpr ⟨plain, hp, ?_⟩
        rw [if_pos (List.contains_iff_mem.mpr hm), hr]
        rfl
      exact ⟨⟨source, renamed, _⟩, by rw [output?, ht, he], hm'⟩
  case mpr =>
    intro ⟨o, ho, hm⟩
    have ⟨text, place, ht, hp, he⟩ := output?_eq_some ho
    have ⟨plain, htp, hc⟩ := place_eq_ok hp
    refine ⟨by rw [ht]; rfl, ?_⟩
    subst he
    split at hc
    case isTrue hm' =>
      intro withSuffix
      cases withSuffix
      case false => exact ⟨plain, hm', htp⟩
      case true  => exact ⟨_, hm, hc⟩
    case isFalse hm' => exact absurd (hc ▸ hm) hm'

theorem outputs_concat (job : Job) (t : Tree) (sources : List Path) (source : Path) :
    job.outputs t (sources ++ [source]) = job.extend t (job.outputs t sources) source := by
  rw [outputs, List.foldl_append, List.foldl_cons, List.foldl_nil, ← outputs]

theorem subset_foldl_extend : outs ⊆ sources.foldl (job.extend t) outs := by
  induction sources generalizing outs
  case nil                    => exact List.Subset.refl _
  case cons source sources hi => exact List.Subset.trans (List.subset_append_left _ _) hi

theorem nodup_paths_extend : ((job.extend t outs source).map Output.path).Nodup ↔
    (outs.map Output.path).Nodup ∧
      ¬∃ o, job.output? t (outs.map Output.path) source = some o ∧ o.path ∈ outs.map Output.path := by
  rw [extend]
  cases ho : job.output? t (outs.map Output.path) source
  case none => simp
  case some o =>
    rw [List.map_append, Option.toList_some, List.map_singleton, List.nodup_append_comm,
      List.singleton_append, List.nodup_cons, and_comm]
    simp

-- No two outputs have the same path exactly if no script finds both its targets taken.
theorem nodup_paths_iff : ((job.outputs t sources).map Output.path).Nodup ↔
    ∀ before source, before ++ [source] <+: sources → ¬job.Crowds t before source := by
  induction sources using List.reverseRecOn
  case nil => simp [outputs]
  case append_singleton sources last hi =>
    rw [outputs_concat, nodup_paths_extend, hi, ← crowds_iff]
    simp only [List.prefix_concat_iff, or_imp, forall_and, List.append_singleton_inj, and_imp]
    constructor
    case mp =>
      intro ⟨hb, hl⟩
      exact ⟨fun _ _ he he' => he ▸ he' ▸ hl, hb⟩
    case mpr =>
      intro ⟨hl, hb⟩
      exact ⟨hb, hl sources last rfl rfl⟩

end Job

-- Scripts

section Scripts

variable {root p : Path} {v : Settings.Value}

theorem isFile_of_filesMatching {found : List Path} {pattern : Text}
    (h : t.filesMatching root pattern = .ok found) (hp : p ∈ found) : t.isFile p := by
  rw [filesMatching] at h
  split at h
  case h_1 => contradiction
  case h_2 => cases h; exact (List.mem_filter.mp hp).2

theorem sourcesOf_eq_ok (hr : ¬t.isFile root) :
    sourcesOf t root v = .ok sources ↔ ∃ patterns found, patternsOf v = .ok patterns ∧
      patterns.mapM (fun p => do t.filesMatching root (← patternOf p)) = .ok found ∧
      sources = sortedOnce found.flatten := by
  rw [sourcesOf, if_neg hr]
  constructor
  case mp =>
    intro h
    have ⟨patterns, hp, h⟩ := bind_eq_ok.mp h
    have ⟨found, hf, h⟩ := bind_eq_ok.mp h
    cases h
    exact ⟨patterns, found, hp, hf, rfl⟩
  case mpr =>
    intro ⟨patterns, found, hp, hf, hs⟩
    exact bind_eq_ok.mpr ⟨patterns, hp, bind_eq_ok.mpr ⟨found, hf, hs ▸ rfl⟩⟩

theorem sortedOnce_eq {ps : List Path} (hn : ps.eraseDups = ps)
    (hs : ps.Pairwise fun p q => !q.precedes p) : sortedOnce ps = ps := by
  rw [sortedOnce, hn, List.mergeSort_of_pairwise hs]

theorem filesMatching_of_mem_sourcesOf (hr : ¬t.isFile root) (h : sourcesOf t root v = .ok sources)
    (hp : p ∈ sources) : ∃ patterns, patternsOf v = .ok patterns ∧ ∃ x ∈ patterns, ∃ pattern,
      patternOf x = .ok pattern ∧ ∃ found, t.filesMatching root pattern = .ok found ∧ p ∈ found := by
  have ⟨patterns, found, hps, hf, hs⟩ := (sourcesOf_eq_ok hr).mp h
  rw [hs, sortedOnce, List.mem_mergeSort, List.mem_eraseDups, List.mem_flatten] at hp
  have ⟨ps, hm, hp⟩ := hp
  have ⟨x, hx, hxp⟩ := exists_of_mem_mapM hf hm
  have ⟨pattern, hpt, hm⟩ := bind_eq_ok.mp hxp
  exact ⟨patterns, hps, x, hx, pattern, hpt, ps, hm, hp⟩

theorem isFile_of_sourcesOf (h : sourcesOf t root v = .ok sources) (hp : p ∈ sources) :
    t.isFile p := by
  by_cases hr : t.isFile root
  case pos =>
    rw [sourcesOf, if_pos hr] at h
    cases h
    rwa [List.mem_singleton.mp hp]
  case neg =>
    have ⟨_, _, _, _, _, _, _, hm, hp⟩ := filesMatching_of_mem_sourcesOf hr h hp
    exact isFile_of_filesMatching hm hp

-- No pattern has double dots.
def StraightPatterns (v : Settings.Value) : Prop :=
  ∀ patterns, patternsOf v = .ok patterns → ∀ x ∈ patterns, ∀ pattern, patternOf x = .ok pattern →
    Straight (Path.ofText pattern).parts

theorem isBelow_of_sourcesOf (hd : t.isDirectory root) (ht : t.IsStraight) (hv : StraightPatterns v)
    (h : sourcesOf t root v = .ok sources) (hp : p ∈ sources) : root.IsBelow p := by
  have ⟨_, hps, _, hx, _, hpt, _, hm, hp⟩ :=
    filesMatching_of_mem_sourcesOf (not_isFile_of_isDirectory hd) h hp
  rw [filesMatching] at hm
  split at hm
  case h_1 => contradiction
  case h_2 segments hsg =>
    cases hm
    rw [if_pos hd] at hp
    have hst := isStraight_of_parsePattern hsg (hv _ hps _ hx _ hpt)
    exact isBelow_of_mem_glob ht hst (List.mem_filter.mp hp).1

end Scripts

-- Places

def Output.location (t : Tree) (o : Output) : Location :=
  t.locationOf o.path

theorem map_location (t : Tree) (outs : List Output) :
    outs.map (Output.location t) = (outs.map Output.path).map t.locationOf := by
  rw [List.map_map]
  rfl

theorem Job.mem_outputs (ho : o ∈ job.outputs t sources) : o.source ∈ sources ∧
    ∃ withSuffix, target t o.source job.root job.out job.format withSuffix = .ok o.path := by
  induction sources using List.reverseRecOn
  case nil => contradiction
  case append_singleton sources source hi =>
    rw [outputs_concat, extend] at ho
    obtain ho | ho := List.mem_append.mp ho
    case inl =>
      have ⟨hs, ht⟩ := hi ho
      exact ⟨List.mem_append_left _ hs, ht⟩
    case inr =>
      rw [Option.mem_toList] at ho
      have ⟨_, _, _, _, he⟩ := output?_eq_some ho
      have hs : o.source = source := by rw [he]
      exact ⟨List.mem_append_right _ (List.mem_singleton.mpr hs), hs ▸ target_of_output? ho⟩

-- Unless a pattern has double dots or there are links, different paths of outputs lead to different places.
theorem Job.path_eq_of_location_eq {v : Settings.Value} (hu : t.links = []) (hd : t.isDirectory job.root)
    (ht : t.IsStraight) (hv : StraightPatterns v) (hf : sourcesOf t job.root v = .ok sources)
    {o o' : Output} (ho : o ∈ job.outputs t sources) (ho' : o' ∈ job.outputs t sources)
    (hl : o.location t = o'.location t) : o.path = o'.path :=
  have ⟨hs, _, hp⟩ := mem_outputs ho
  have ⟨hs', _, hp'⟩ := mem_outputs ho'
  have hb := isBelow_of_sourcesOf hd ht hv hf hs
  have hb' := isBelow_of_sourcesOf hd ht hv hf hs'
  target_inj hu hd hb hb' hp hp' hl

-- Without links no output stands where a script does.
theorem Job.locationOf_not_mem_outputs (hu : t.links = []) (hc : checkSource source = .ok ()) :
    t.locationOf source ∉ (job.outputs t sources).map (Output.location t) := by
  intro hm
  obtain ⟨o, ho, he⟩ := List.mem_map.mp hm
  have ⟨_, _, hp⟩ := mem_outputs ho
  exact locationOf_target_ne hu hc hp he.symm

end GherkinView.CommandLine
