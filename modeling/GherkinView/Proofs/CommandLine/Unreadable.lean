import GherkinView.Proofs.CommandLine.Absence
import GherkinView.Proofs.CommandLine.Mirrors

namespace GherkinView.CommandLine

open File File.Tree Gherkin Journal

variable {job : Job} {t : Tree} {sources : List Path} {gone : List Location}
variable {r : ConvertRequest} {settings : Settings} {s : Session}

-- What the settings have scripts found by.
def patternValue (settings : Settings) : Settings.Value :=
  settings.get "parser.patterns".toList .null

-- Conversions

section Conversions

variable [Libraries]

-- The job goes out from the path that is asked for, and does not depend on the session.
theorem jobOf_eq_ok (h : jobOf r settings s = .ok job) :
    job.root = .ofText r.path ∧ ∀ s', jobOf r settings s' = .ok job := by
  unfold jobOf at h ⊢
  generalize r.format = asked, formatOf (settings.get _ _) = format at h ⊢
  generalize r.out.filter _ = asked', outOf (settings.get _ _) = out at h ⊢
  obtain _ | f := asked <;> obtain _ | _ | _ := format <;> obtain _ | _ := asked' <;>
    obtain _ | _ := out <;> first | exact ⟨by cases h; rfl, fun _ => h⟩ | cases h

theorem Job.run_ending (job : Job) (s : Session) (sources : List Path) : (job.run s sources).2 =
    if (sources.foldl job.convert (found s sources)).failures = 0 then .done else .failed := by
  rw [run, ← found]
  split <;> rfl

-- The targets that a conversion writes to, the last one first.
def targetsOf (r : ConvertRequest) (settings : Settings) (s : Session) : List Path :=
  match jobOf r settings s with
  | .error _ => []
  | .ok job =>
    match sourcesOf s.tree job.root (patternValue settings) with
    | .error _ => []
    | .ok sources => (sources.foldl job.convert (found s sources)).written

-- A conversion converts these scripts, one after the other, between things that it tells.
structure Converts (r : ConvertRequest) (settings : Settings) (s : Session) (job : Job)
    (sources : List Path) (b b' : Batch) : Prop where
  before : Batch.Told { session := s } b
  after : (sources.foldl job.convert b).Told b'
  session : (convert r settings s).1 = b'.session
  targets : targetsOf r settings s = (sources.foldl job.convert b).written

theorem convert_eq_run (hj : jobOf r settings s = .ok job)
    (hf : sourcesOf s.tree job.root (patternValue settings) = .ok sources) (hn : sources ≠ []) :
    convert r settings s = job.run s sources := by
  rw [patternValue] at hf
  rw [convert, hj]
  dsimp only
  rw [hf]
  cases sources
  case nil  => contradiction
  case cons => rfl

theorem converts_sources (hj : jobOf r settings s = .ok job)
    (hf : sourcesOf s.tree job.root (patternValue settings) = .ok sources) :
    ∃ b b', Converts r settings s job sources b b' ∧ b.failures = 0 ∧
      (job.Writes (found s sources) sources → job.Writes b sources) ∧
      (convert r settings s).2 = if (sources.foldl job.convert b).failures = 0 then .done else .failed := by
  have ht : targetsOf r settings s = (sources.foldl job.convert (found s sources)).written := by
    rw [targetsOf, hj]
    dsimp only
    rw [hf]
  cases sources
  case nil =>
    rw [patternValue] at hf
    have hc : convert r settings s =
        (s.tell .warning ("No test scripts found under ".toList ++ r.path), .done) := by
      rw [convert, hj]
      dsimp only
      rw [hf]
    exact ⟨_, _, ⟨.tell _ _ _, ⟨.refl _, rfl⟩, congrArg Prod.fst hc, ht⟩, rfl, fun _ => trivial,
      congrArg Prod.snd hc⟩
  case cons source sources =>
    have hc := convert_eq_run hj hf (List.cons_ne_nil _ _)
    have ⟨b, hb, he⟩ := job.run_told s (source :: sources)
    exact ⟨_, b, ⟨told_found s _, hb, hc ▸ he, ht⟩, rfl, id, hc ▸ job.run_ending s _⟩

-- Where nothing is nothing is converted, whether the patterns are well formed or not.
theorem converts_nothing (hj : jobOf r settings s = .ok job) (hf : ¬s.tree.isFile job.root)
    (hd : ¬s.tree.isDirectory job.root) : ∃ b b', Converts r settings s job [] b b' := by
  cases hs : sourcesOf s.tree job.root (patternValue settings)
  case ok sources =>
    have hn : sources = [] := by
      refine List.eq_nil_iff_forall_not_mem.mpr fun p hp => ?_
      have hx := isFoundFrom_of_sourcesOf hs hp
      rw [IsFoundFrom, if_neg hd] at hx
      exact hf (hx ▸ isFile_of_sourcesOf hs hp)
    obtain ⟨b, b', h, _⟩ := converts_sources hj (hn ▸ hs)
    exact ⟨b, b', h⟩
  case error e =>
    refine ⟨{ session := s }, { session := s }, ⟨.refl _, rfl⟩, ⟨.refl _, rfl⟩, ?_, ?_⟩
    case refine_1 =>
      rw [patternValue] at hs
      rw [convert, hj]
      dsimp only
      rw [hs]
    case refine_2 =>
      rw [targetsOf, hj]
      dsimp only
      rw [hs]
      rfl

-- Without the scripts that cannot be read, the others are converted.
theorem converts_without (ht : s.tree.IsWellFormed) (hj : jobOf r settings s = .ok job)
    (hf : sourcesOf s.tree job.root (patternValue settings) = .ok sources) (hg : s.tree.AreFiles gone) :
    ∃ b b', Converts r settings (s.without gone) job
      (sources.filter (s.tree.locationOf · ∉ gone)) b b' := by
  have hj' := (jobOf_eq_ok hj).right (s.without gone)
  by_cases hd : s.tree.isDirectory job.root
  case pos =>
    obtain ⟨b, b', h, _⟩ := converts_sources hj' (sourcesOf_without ht hg hd hf)
    exact ⟨b, b', h⟩
  case neg =>
    have hx : ∀ p ∈ sources, p = job.root := by
      intro p hp
      have hx := isFoundFrom_of_sourcesOf hf hp
      rwa [IsFoundFrom, if_neg hd] at hx
    by_cases hr : (s.tree.without gone).isFile job.root
    case pos =>
      obtain ⟨hr', hl⟩ := (isFile_without hg).mp hr
      rw [sourcesOf, if_pos hr'] at hf
      cases hf
      have hf' : sourcesOf (s.tree.without gone) job.root (patternValue settings) = .ok [job.root] := by
        rw [sourcesOf, if_pos hr]
        rfl
      obtain ⟨b, b', h, _⟩ := converts_sources hj' hf'
      rw [List.filter_cons_of_pos (by simpa using hl)]
      exact ⟨b, b', h⟩
    case neg =>
      have hn : sources.filter (s.tree.locationOf · ∉ gone) = [] := by
        refine List.filter_eq_nil_iff.mpr fun p hp hl => hr ((isFile_without hg).mpr ?_)
        rw [← hx p hp]
        exact ⟨isFile_of_sourcesOf hf hp, by simpa using hl⟩
      rw [hn]
      exact converts_nothing hj' hr (by rwa [← isDirectory_without hg] at hd)

-- The scripts that cannot be read are told of in the ending, and in nothing else that the conversion leaves:
-- without them the others are written to the same targets, with the same contents.
theorem convert_without_unreadable (hj : jobOf r settings s = .ok job)
    (hf : sourcesOf s.tree job.root (patternValue settings) = .ok sources)
    (ht : s.tree.IsWellFormed) (hw : job.Writes (found s sources) sources)
    (hl : ∀ p ∈ sources, checkSource p = .ok () → s.tree.locationOf p ∉ s.desk.channels.logFiles) :
    let gone := unreadable s.tree sources
    let s' := s.without gone
    (convert r settings s).2.code = (if gone = [] then 0 else 1) ∧
      targetsOf r settings s' = targetsOf r settings s ∧
      Lacks s.desk.channels.logFiles gone s.tree
        (convert r settings s).1.tree (convert r settings s').1.tree := by
  intro gone s'
  have ha : ∀ p ∈ sources, s.tree.isFile p := fun p => isFile_of_sourcesOf hf
  have hg : s.tree.AreFiles gone := areFiles_unreadable ha
  obtain ⟨b₀, b, hc, hb₀, hw₀, he⟩ := converts_sources hj hf
  obtain ⟨b₀', b', hc'⟩ := converts_without ht hj hf hg
  have hm : Batch.Mirrors job s.tree s.desk.channels gone { session := s } { session := s' } :=
    ⟨.start job s, rfl, rfl, lacks_without hg _⟩
  have ⟨hr, hn⟩ := (hm.told hc.before hc'.before).convertAll ht.links ha (fun p => isFoundFrom_of_sourcesOf hf) hl
    (fun p => mem_unreadable_iff ht ha) (hw₀ hw)
  refine ⟨?code, ?targets, ?lacks⟩
  case code =>
    have hz : (sources.foldl job.convert b₀).failures = 0 ↔ gone = [] := by
      rw [hn, hb₀, Nat.zero_add, List.countP_eq_zero, ← List.filter_eq_nil_iff]
      exact List.map_eq_nil_iff.symm
    rw [he]
    simp only [hz]
    split <;> rfl
  case targets => rw [hc.targets, hc'.targets, hr.written]
  case lacks =>
    rw [hc.session, hc'.session]
    exact (hr.told hc.after hc'.after).lacks

end Conversions

-- Runs

-- The settings before any file of them is read.
def ConvertRequest.unloaded (r : ConvertRequest) (scope : Settings.Variables) : Settings :=
  { path := .ofText r.settings, environment := r.environment, scope }

section Runs

variable [Libraries] {args : List Text} {scope : Settings.Variables}

theorem run_of_started (hr : Request.read? t args = some (.convert r))
    (hs : start { desk := { tree := t } } (r.unloaded scope) = .ready s settings) (edits : List (List Edit)) :
    run args scope t edits = { session := (convert r settings s).1, ending := (convert r settings s).2 } := by
  rw [ConvertRequest.unloaded] at hs
  rw [run, begin, hr]
  dsimp only
  rw [hs]
  rfl

-- The command line asks for a conversion, and that comes to these scripts.
structure Begins (args : List Text) (scope : Settings.Variables) (t : Tree) (r : ConvertRequest)
    (s : Session) (settings : Settings) (job : Job) (sources : List Path) : Prop where
  asks : Request.read? t args = some (.convert r)
  starts : start { desk := { tree := t } } (r.unloaded scope) = .ready s settings
  plans : jobOf r settings s = .ok job
  finds : sourcesOf s.tree job.root (patternValue settings) = .ok sources

theorem Begins.run_eq (h : Begins args scope t r s settings job sources) (edits : List (List Edit)) :
    run args scope t edits = { session := (convert r settings s).1, ending := (convert r settings s).2 } :=
  run_of_started h.asks h.starts edits

theorem Begins.run_eq_of_ne_nil (h : Begins args scope t r s settings job sources) (hn : sources ≠ [])
    (edits : List (List Edit)) :
    run args scope t edits = { session := (job.run s sources).1, ending := (job.run s sources).2 } := by
  rw [h.run_eq, convert_eq_run h.plans h.finds hn]

-- It comes to the same without files that are not read on the way to the scripts.
theorem Begins.without (h : Begins args scope t r s settings job sources)
    (hd : s.tree.isDirectory job.root) (ht : s.tree.IsWellFormed) (hg : s.tree.AreFiles gone)
    (hl : ∀ l ∈ s.desk.channels.logFiles, l ∉ gone)
    (hc : ∀ p ∈ (r.unloaded scope).files t, t.locationOf p ∉ gone) :
    Begins args scope (t.without gone) r (s.without gone) settings job
      (sources.filter (s.tree.locationOf · ∉ gone)) := by
  obtain ⟨hg', hh, hs⟩ := start_without h.starts rfl hg hl hc
  obtain ⟨hroot, hplans⟩ := jobOf_eq_ok h.plans
  have hr : t.locationOf (.ofText r.path) ∉ gone := by
    obtain ⟨l, hp, hc⟩ := isDirectory_iff.mp hd
    have he : t.locationOf (.ofText r.path) = l := by
      rw [locate_eq hp, hroot, hh.locationOf_eq]
    intro hm
    obtain ⟨_, hf⟩ := hg _ hm
    rw [he, hc] at hf
    cases hf
  exact ⟨Request.read?_congr h.asks (named?_without hg' hr), hs, hplans _,
    sourcesOf_without ht hg hd h.finds⟩

-- A run on a directory ends with a failure exactly if there are scripts in it that cannot be read. Without
-- them the others are found and written alike, unless they hold settings, or a script is the log file.
theorem run_without_unreadable (h : Begins args scope t r s settings job sources)
    (hd : s.tree.isDirectory job.root) (ht : s.tree.IsWellFormed)
    (hw : job.Writes (found s sources) sources)
    (hl : ∀ p ∈ sources, s.tree.locationOf p ∉ s.desk.channels.logFiles)
    (hc : ∀ p ∈ (r.unloaded scope).files t, t.locationOf p ∉ unreadable s.tree sources)
    (edits : List (List Edit)) :
    let gone := unreadable s.tree sources
    let whole := run args scope t edits
    let rest := run args scope (t.without gone) edits
    whole.ending.code = (if gone = [] then 0 else 1) ∧
      Begins args scope (t.without gone) r (s.without gone) settings job
        (sources.filter (isReadable s.tree)) ∧
      targetsOf r settings (s.without gone) = targetsOf r settings s ∧
      Lacks s.desk.channels.logFiles gone s.tree whole.session.tree rest.session.tree := by
  intro gone whole rest
  have ha : ∀ p ∈ sources, s.tree.isFile p := fun p => isFile_of_sourcesOf h.finds
  have hg : s.tree.AreFiles gone := areFiles_unreadable ha
  have hn : ∀ l ∈ s.desk.channels.logFiles, l ∉ gone := by
    intro l hm hg
    obtain ⟨p, hp, rfl⟩ := List.mem_map.mp hg
    exact hl p (List.mem_of_mem_filter hp) hm
  have hb := h.without hd ht hg hn hc
  have he : sources.filter (s.tree.locationOf · ∉ gone) = sources.filter (isReadable s.tree) := by
    refine List.filter_congr fun p hp => ?_
    rw [Bool.eq_iff_iff, decide_eq_true_iff, mem_unreadable_iff ht ha hp, Bool.not_eq_false]
  have ⟨hz, hs, hx⟩ := convert_without_unreadable h.plans h.finds ht hw fun p hp _ => hl p hp
  have hwhole : whole = _ := h.run_eq edits
  have hrest : rest = _ := hb.run_eq edits
  rw [hwhole, hrest]
  exact ⟨hz, he ▸ hb, hs, hx⟩

end Runs

namespace Unreadable

-- A file of settings, and files in a directory.
def project (settings : String) (files : List (String × List UInt8)) : Tree where
  entries :=
    (["config".toList], .directory (.fresh 0)) ::
    (["config".toList, "config.yaml".toList], .file (Utf8.encode settings.toList) (.fresh 0)) ::
    (["tests".toList], .directory (.fresh 0)) ::
    files.map fun (name, bytes) => (["tests".toList, name.toList], .file bytes (.fresh 0))
  changes := 1

def suite (name : String) : List UInt8 :=
  Utf8.encode ("test.describe('".toList ++ name.toList ++ "', () => \x7b\n\x7d);".toList)

def request (settings : Text) : ConvertRequest where
  path := "tests".toList
  out := some "features".toList
  format := some .gherkin
  print := false
  environment := none
  settings

def words (settings : Text) : List Text :=
  ["convert".toList, "tests".toList, "-o".toList, "features".toList, "-f".toList, "gherkin".toList,
    "-c".toList, settings]

def loaded [Libraries] (t : Tree) (settings : Text) : Settings :=
  (((request settings).unloaded []).load t).settings

-- The session when the channel of the program is set up.
def started (t : Tree) (handlers : List Handler) : Session :=
  let channel : Channel := ⟨.info, handlers, false⟩
  { desk := { channels := { named := [(Channel.program, channel)], parents := [(Channel.program, [])] }, tree := t } }

end Unreadable

section

open Unreadable Retained Request Standard

-- Between scripts that can be read there is one that is no text.
def Unreadable.mixed : Tree :=
  project "logging: \x7bfile: tests/log\x7d"
    [("log", []), ("a.spec.ts", suite "A"), ("b.spec.ts", [255]), ("c.test.ts", suite "C")]

def Unreadable.mixing : Session :=
  started mixed [.console, .file ["tests".toList, "log".toList]]

theorem begins_mixed : Begins (words defaultSettings) [] mixed (request defaultSettings) mixing
    (loaded mixed defaultSettings) converting (scripts ["a.spec.ts", "b.spec.ts", "c.test.ts"]) where
  asks := by decide +kernel
  starts := by decide +kernel
  plans := rfl
  finds := (sourcesOf_eq_ok (by decide +kernel)).mpr
    ⟨defaultPatterns.map .text, [scripts ["a.spec.ts", "b.spec.ts"], [], scripts ["c.test.ts"], []],
      by decide +kernel, by decide +kernel, (sortedOnce_eq (by decide +kernel) (by decide +kernel)).symm⟩

theorem wellFormed_mixed : mixing.tree.IsWellFormed :=
  ⟨rfl, by decide +kernel, by decide +kernel, ⟨by decide +kernel, nofun⟩, by decide +kernel⟩

theorem run_without_unreadable_mixed :
    let gone := [["tests".toList, "b.spec.ts".toList]]
    let whole := run (words defaultSettings) [] mixed []
    let rest := run (words defaultSettings) [] (mixed.without gone) []
    unreadable mixing.tree (scripts ["a.spec.ts", "b.spec.ts", "c.test.ts"]) = gone ∧
      whole.ending.code = 1 ∧
      Lacks mixing.desk.channels.logFiles gone mixing.tree whole.session.tree rest.session.tree := by
  have hu : unreadable mixing.tree (scripts ["a.spec.ts", "b.spec.ts", "c.test.ts"]) =
    [["tests".toList, "b.spec.ts".toList]] := by decide +kernel
  have h := run_without_unreadable begins_mixed (by decide +kernel) wellFormed_mixed
    ⟨by decide +kernel, by decide +kernel, by decide +kernel, trivial⟩
    (by decide +kernel) (by decide +kernel) []
  rw [hu] at h
  exact ⟨hu, h.1, h.2.2.2⟩

-- A run that reads all it asks for and writes all it reads, but leaves something else at a location than
-- without the scripts that cannot be read.
structure Differs [Libraries] (args : List Text) (t : Tree) (r : ConvertRequest) (s : Session) (settings : Settings)
    (job : Job) (sources : List Path) (gone : List Location) (l : Location) : Prop where
  begins : Begins args [] t r s settings job sources
  directory : s.tree.isDirectory job.root
  -- There may be links, though.
  wellFormed : { s.tree with links := [] }.IsWellFormed
  writes : job.Writes (found s sources) sources
  unreadable : unreadable s.tree sources = gone
  elsewhere : l ∉ gone ∧ l ∉ s.desk.channels.logFiles
  content : (run args [] t []).session.tree.content? l ≠
    (run args [] (t.without gone) []).session.tree.content? l

-- The log goes on in a script, in which the code of a step is still open.
def Unreadable.logged : Tree :=
  project "logging: \x7bfile: tests/log.spec.ts\x7d" [("bad.spec.ts", [255]),
    ("log.spec.ts", Utf8.encode (Text.unlines ["test.describe('Log', () => \x7b".toList,
      "test('case', () => \x7b".toList, "test.step('fill', () => \x7b".toList, "test(() => \x7b".toList, []]))]

def Unreadable.logging : Session :=
  started logged [.console, .file ["tests".toList, "log.spec.ts".toList]]

theorem begins_logged : Begins (words defaultSettings) [] logged (request defaultSettings) logging
    (loaded logged defaultSettings) converting (scripts ["bad.spec.ts", "log.spec.ts"]) where
  asks := by decide +kernel
  starts := by decide +kernel
  plans := rfl
  finds := (sourcesOf_eq_ok (by decide +kernel)).mpr
    ⟨defaultPatterns.map .text, [scripts ["bad.spec.ts", "log.spec.ts"], [], [], []],
      by decide +kernel, by decide +kernel, (sortedOnce_eq (by decide +kernel) (by decide +kernel)).symm⟩

theorem differs_logged : Differs (words defaultSettings) logged (request defaultSettings) logging
    (loaded logged defaultSettings) converting (scripts ["bad.spec.ts", "log.spec.ts"])
    [["tests".toList, "bad.spec.ts".toList]] ["features".toList, "log.feature".toList] := by
  have hd : logging.tree.isDirectory converting.root := by decide +kernel
  have ht : logging.tree.IsWellFormed :=
    ⟨rfl, by decide +kernel, by decide +kernel, ⟨by decide +kernel, nofun⟩, by decide +kernel⟩
  have hg : logging.tree.AreFiles [["tests".toList, "bad.spec.ts".toList]] := by
    intro l hl
    rw [List.mem_singleton.mp hl]
    exact ⟨[255], by decide +kernel⟩
  have hb := begins_logged.without hd ht hg (by decide +kernel) (by decide +kernel)
  refine ⟨begins_logged, hd, ht, ⟨by decide +kernel, by decide +kernel, trivial⟩, by decide +kernel,
    by decide +kernel, ?_⟩
  rw [begins_logged.run_eq_of_ne_nil (by decide), hb.run_eq_of_ne_nil (by decide +kernel)]
  decide +kernel

-- The patterns are in a file that they lead to, and lead to another script only they do.
def Unreadable.held : Tree :=
  project "" [("a.ts", suite "A"), ("b.spec.ts", suite "B"),
    ("c.yaml", Utf8.encode "parser: \x7bpatterns: ['*']\x7d".toList)]

def Unreadable.released : Tree :=
  held.without [["tests".toList, "c.yaml".toList]]

theorem begins_held : Begins (words "tests/c.yaml".toList) [] held (request "tests/c.yaml".toList)
    (started held [.console]) (loaded held "tests/c.yaml".toList) converting
    (scripts ["a.ts", "b.spec.ts", "c.yaml"]) where
  asks := by decide +kernel
  starts := by decide +kernel
  plans := rfl
  finds := (sourcesOf_eq_ok (by decide +kernel)).mpr
    ⟨[.text ['*']], [scripts ["a.ts", "b.spec.ts", "c.yaml"]],
      by decide +kernel, by decide +kernel, (sortedOnce_eq (by decide +kernel) (by decide +kernel)).symm⟩

theorem begins_released : Begins (words "tests/c.yaml".toList) [] released (request "tests/c.yaml".toList)
    (started released [.console]) (loaded released "tests/c.yaml".toList) converting
    (scripts ["b.spec.ts"]) where
  asks := by decide +kernel
  starts := by decide +kernel
  plans := rfl
  finds := (sourcesOf_eq_ok (by decide +kernel)).mpr
    ⟨defaultPatterns.map .text, [scripts ["b.spec.ts"], [], [], []],
      by decide +kernel, by decide +kernel, (sortedOnce_eq (by decide +kernel) (by decide +kernel)).symm⟩

theorem differs_held : Differs (words "tests/c.yaml".toList) held (request "tests/c.yaml".toList)
    (started held [.console]) (loaded held "tests/c.yaml".toList) converting
    (scripts ["a.ts", "b.spec.ts", "c.yaml"]) [["tests".toList, "c.yaml".toList]]
    ["features".toList, "a.feature".toList] := by
  refine ⟨begins_held, by decide +kernel,
    ⟨rfl, by decide +kernel, by decide +kernel, ⟨by decide +kernel, nofun⟩, by decide +kernel⟩,
    ⟨by decide +kernel, by decide +kernel, by decide +kernel, trivial⟩,
    by decide +kernel, by decide +kernel, ?_⟩
  have hr : run (words "tests/c.yaml".toList) [] (held.without [["tests".toList, "c.yaml".toList]]) [] = _ :=
    begins_released.run_eq_of_ne_nil (by decide +kernel) []
  rw [begins_held.run_eq_of_ne_nil (by decide +kernel), hr]
  decide +kernel

-- A link named like a script leads to a file that is not.
def Unreadable.shared : Tree :=
  { project "parser: \x7bpatterns: ['*']\x7d" [("b.spec.ts", suite "B"), ("y.dat", suite "Y")] with
    links := [(["tests".toList, "z.spec.ts".toList], ["tests".toList, "y.dat".toList])] }

def Unreadable.severed : Tree :=
  shared.without [["tests".toList, "y.dat".toList]]

theorem begins_shared : Begins (words defaultSettings) [] shared (request defaultSettings)
    (started shared [.console]) (loaded shared defaultSettings) converting
    (scripts ["b.spec.ts", "y.dat", "z.spec.ts"]) where
  asks := by decide +kernel
  starts := by decide +kernel
  plans := rfl
  finds := (sourcesOf_eq_ok (by decide +kernel)).mpr
    ⟨[.text ['*']], [scripts ["b.spec.ts", "y.dat", "z.spec.ts"]],
      by decide +kernel, by decide +kernel, (sortedOnce_eq (by decide +kernel) (by decide +kernel)).symm⟩

theorem begins_severed : Begins (words defaultSettings) [] severed (request defaultSettings)
    (started severed [.console]) (loaded severed defaultSettings) converting (scripts ["b.spec.ts"]) where
  asks := by decide +kernel
  starts := by decide +kernel
  plans := rfl
  finds := (sourcesOf_eq_ok (by decide +kernel)).mpr
    ⟨[.text ['*']], [scripts ["b.spec.ts"]],
      by decide +kernel, by decide +kernel, (sortedOnce_eq (by decide +kernel) (by decide +kernel)).symm⟩

theorem differs_shared : Differs (words defaultSettings) shared (request defaultSettings)
    (started shared [.console]) (loaded shared defaultSettings) converting
    (scripts ["b.spec.ts", "y.dat", "z.spec.ts"]) [["tests".toList, "y.dat".toList]]
    ["features".toList, "z.feature".toList] := by
  refine ⟨begins_shared, by decide +kernel,
    ⟨rfl, by decide +kernel, by decide +kernel, ⟨by decide +kernel, nofun⟩, by decide +kernel⟩,
    ⟨by decide +kernel, by decide +kernel, by decide +kernel, trivial⟩,
    by decide +kernel, by decide +kernel, ?_⟩
  have hr : run (words defaultSettings) [] (shared.without [["tests".toList, "y.dat".toList]]) [] = _ :=
    begins_severed.run_eq_of_ne_nil (by decide +kernel) []
  rw [begins_shared.run_eq_of_ne_nil (by decide +kernel), hr]
  decide +kernel

-- A log file among the scripts makes a difference, and so do settings among those that cannot be read, and a
-- link to one of these.
theorem run_differs_without_unreadable :
    Differs (words defaultSettings) logged (request defaultSettings) logging
        (loaded logged defaultSettings) converting (scripts ["bad.spec.ts", "log.spec.ts"])
        [["tests".toList, "bad.spec.ts".toList]] ["features".toList, "log.feature".toList] ∧
      Differs (words "tests/c.yaml".toList) held (request "tests/c.yaml".toList)
        (started held [.console]) (loaded held "tests/c.yaml".toList) converting
        (scripts ["a.ts", "b.spec.ts", "c.yaml"]) [["tests".toList, "c.yaml".toList]]
        ["features".toList, "a.feature".toList] ∧
      Differs (words defaultSettings) shared (request defaultSettings)
        (started shared [.console]) (loaded shared defaultSettings) converting
        (scripts ["b.spec.ts", "y.dat", "z.spec.ts"]) [["tests".toList, "y.dat".toList]]
        ["features".toList, "z.feature".toList] :=
  ⟨differs_logged, differs_held, differs_shared⟩

end

end GherkinView.CommandLine
