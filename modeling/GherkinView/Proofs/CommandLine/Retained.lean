import GherkinView.Proofs.CommandLine.Outputs
import GherkinView.Proofs.Journal.LogFiles
import GherkinView.Standard

namespace GherkinView.CommandLine

open File File.Tree Gherkin Journal

variable {job : Job} {t t' : Tree} {b b' : Batch} {source : Path} {sources : List Path}
variable {o : Output} {outs : List Output} {place : Place} {cs : Channels} {text : Text}

-- Reading

-- A script that is kept is read alike, or not read alike.
theorem sourceText_eq_of_keepsBut {ls : List Location} (hk : KeepsBut ls t t') (hf : t.isFile source)
    (hl : checkSource source = .ok () → t.locationOf source ∉ ls) :
    sourceText t' source = sourceText t source := by
  cases hc : checkSource source
  case error e => simp only [sourceText, hc]; rfl
  case ok =>
    have ⟨bytes, hb⟩ := isFile_iff.mp hf
    simp only [sourceText, readText, hb, hk.readBytes (hl hc) hb]

-- Saving

theorem save_eq_none {p : Path} (h : save t p text = (t', none)) :
    KeepsBut [t.locationOf p] t t' ∧ t'.readBytes p = .ok (Utf8.encode text) := by
  rw [save] at h
  split at h
  case h_1 => cases h
  case h_2 t₁ hm =>
    split at h
    case h_1 => cases h
    case h_2 t₂ hw =>
      cases h
      have hk := keepsBut_makeDirectories hm
      have hw' := keepsBut_writeBytes hw
      rw [hk.locationOf_eq] at hw'
      exact ⟨(hk.mono (List.nil_subset _)).trans hw', readBytes_writeBytes hw⟩

namespace Batch

-- What is told meanwhile, but nothing is written.
structure Told (b b' : Batch) : Prop where
  desk : Desk.Told b.session.desk b'.session.desk
  written : b'.written = b.written

theorem Told.keeps (h : Told b b') :
    KeepsBut b.session.desk.channels.logFiles b.session.tree b'.session.tree :=
  h.desk.keeps

theorem Told.tell (b : Batch) (level : Level) (message : Text) : Told b (b.tell level message) :=
  ⟨.tellAll _ _, rfl⟩

theorem Told.fail (b : Batch) (source : Path) (e : Error) : Told b (b.fail source e) :=
  ⟨.tellAll _ _, rfl⟩

theorem fail_failures_ne (b : Batch) (source : Path) (e : Error) :
    (b.fail source e).failures ≠ b.failures :=
  Nat.succ_ne_self _

end Batch

-- The batch when it is told that the target is taken.
def Batch.warned (b : Batch) (source : Path) (place : Place) : Batch :=
  match place.taken with
  | some taken => b.tell .warning (overwriteText source taken place.path)
  | none => b

-- The batch when the target is no longer free.
def Batch.put (b : Batch) (t : Tree) (p : Path) : Batch :=
  { b with session := b.session.setTree t, written := p :: b.written }

theorem Batch.told_warned (b : Batch) (source : Path) (place : Place) :
    b.Told (b.warned source place) ∧ (b.warned source place).failures = b.failures := by
  rw [warned]
  split
  case h_1 => exact ⟨.tell _ _ _, rfl⟩
  case h_2 => exact ⟨⟨.refl _, rfl⟩, rfl⟩

theorem Job.write_eq (d : Document) (text : Text)
    (hp : job.place b.session.tree b.written source = .ok place) :
    ∃ message, job.write b source d text =
      match save (b.warned source place).session.tree place.path (text ++ ['\n']) with
      | (t, some e) => ((b.warned source place).put t place.path).fail source e
      | (t, none) => ((b.warned source place).put t place.path).tell .info message :=
  ⟨_, by rw [Job.write, hp]; rfl⟩

-- A write without failure: what is told before and after it, and the change of the tree.
theorem Job.write_saved {d : Document} (h : (job.write b source d text).failures = b.failures) :
    ∃ place b₁ t₂, job.place b.session.tree b.written source = .ok place ∧ b.Told b₁ ∧
      save b₁.session.tree place.path (text ++ ['\n']) = (t₂, none) ∧
      (b₁.put t₂ place.path).Told (job.write b source d text) := by
  cases hp : job.place b.session.tree b.written source
  case error e =>
    simp only [Job.write, hp] at h
    exact absurd h (b.fail_failures_ne source e)
  case ok place =>
    have ⟨ht, hf⟩ := b.told_warned source place
    have ⟨message, hw⟩ := Job.write_eq d text hp
    rw [hw] at h ⊢
    split at h
    case h_1 t₂ e hs => exact absurd (h.trans hf.symm) (Batch.fail_failures_ne _ source e)
    case h_2 t₂ hs =>
      refine ⟨place, b.warned source place, t₂, rfl, ht, hs, ?_⟩
      exact .tell _ _ _

-- No script fails that can be read.
def Job.Saves [Libraries] (job : Job) (b : Batch) : List Path → Prop
  | [] => True
  | source :: sources =>
    ((sourceText b.session.tree source).toOption.isSome →
      (job.convert b source).failures = b.failures) ∧ job.Saves (job.convert b source) sources

def Output.bytes (o : Output) : List UInt8 :=
  Utf8.encode (o.content ++ ['\n'])

-- A batch has written to targets only, in a tree that was `t` at first, and has changed nothing else but
-- the log files.
structure Batch.Keeps (job : Job) (t : Tree) (cs : Channels) (b : Batch) : Prop where
  channels : b.session.desk.channels = cs
  targets : ∀ p ∈ b.written, ∃ source withSuffix,
    target t source job.root job.out job.format withSuffix = .ok p
  keeps : KeepsBut (cs.logFiles ++ b.written.map t.locationOf) t b.session.tree

namespace Batch.Keeps

theorem start (job : Job) (s : Session) : Keeps job s.tree s.desk.channels { session := s } :=
  ⟨rfl, nofun, .refl _ _⟩

theorem told (h : Keeps job t cs b) (ht : b.Told b') : Keeps job t cs b' where
  channels := ht.desk.channels.trans h.channels
  targets := ht.written ▸ h.targets
  keeps := by
    rw [ht.written]
    exact h.keeps.trans ((h.channels ▸ ht.keeps).mono (List.subset_append_left _ _))

-- Unless it has been written to, the script is still what it was at first.
theorem sourceText_eq (h : Keeps job t cs b) (hf : t.isFile source)
    (hl : checkSource source = .ok () → t.locationOf source ∉ cs.logFiles)
    (hw : checkSource source = .ok () → t.locationOf source ∉ b.written.map t.locationOf) :
    sourceText b.session.tree source = sourceText t source :=
  sourceText_eq_of_keepsBut h.keeps hf fun hc => List.not_mem_append (hl hc) (hw hc)

theorem sourceText_eq_of_unlinked (h : Keeps job t cs b) (hu : t.links = []) (hf : t.isFile source)
    (hl : checkSource source = .ok () → t.locationOf source ∉ cs.logFiles) :
    sourceText b.session.tree source = sourceText t source := by
  refine h.sourceText_eq hf hl fun hc hm => ?_
  have ⟨p, hp, he⟩ := List.mem_map.mp hm
  have ⟨_, _, ht⟩ := h.targets p hp
  exact locationOf_target_ne hu hc ht he.symm

-- One more target is written to.
theorem put (h : Keeps job t cs b) {p : Path} (hs : save b.session.tree p text = (t', none))
    (ht : ∃ source withSuffix, target t source job.root job.out job.format withSuffix = .ok p) :
    Keeps job t cs (b.put t' p) where
  channels := h.channels
  targets p' hp := by
    obtain hp | hp := List.mem_cons.mp hp
    case inl => rwa [hp]
    case inr => exact h.targets p' hp
  keeps := by
    have hk := (save_eq_none hs).left
    rw [h.keeps.locationOf_eq] at hk
    refine (h.keeps.mono fun l hl => ?_).trans (hk.mono fun l hl => ?_)
    case refine_1 =>
      obtain hl | hl := List.mem_append.mp hl
      case inl => exact List.mem_append_left _ hl
      case inr => exact List.mem_append_right _ (List.mem_cons_of_mem _ hl)
    case refine_2 =>
      rw [List.mem_singleton.mp hl]
      exact List.mem_append_right _ List.mem_cons_self

end Batch.Keeps

-- A batch has put `outs` in their places. As long as no two outputs share a location, each is still
-- there.
structure Batch.HasPut (job : Job) (t : Tree) (cs : Channels) (outs : List Output) (b : Batch) : Prop
    extends Batch.Keeps job t cs b where
  paths : ∀ p, p ∈ b.written ↔ p ∈ outs.map Output.path
  held : (outs.map (Output.location t)).Nodup →
    ∀ o ∈ outs, b.session.tree.readBytes o.path = .ok o.bytes

namespace Batch.HasPut

theorem told (h : HasPut job t cs outs b) (ht : b.Told b')
    (ha : ∀ o ∈ outs, o.location t ∉ cs.logFiles) : HasPut job t cs outs b' where
  toKeeps := h.toKeeps.told ht
  paths := ht.written ▸ h.paths
  held hn o ho := by
    refine (h.channels ▸ ht.keeps).readBytes ?_ (h.held hn o ho)
    rw [h.keeps.locationOf_eq]
    exact ha o ho

theorem place_eq (h : HasPut job t cs outs b) (hd : t.isDirectory job.root) :
    job.place b.session.tree b.written source = job.place t (outs.map Output.path) source :=
  Job.place_congr (by rw [hd, h.keeps.isDirectory hd]) h.paths

theorem mem_map_written (h : HasPut job t cs outs b) {l : Location} :
    l ∈ b.written.map t.locationOf ↔ l ∈ outs.map (Output.location t) := by
  simp only [map_location, List.mem_map, h.paths]

-- One more output is put in its place.
theorem put (h : HasPut job t cs outs b) {o : Output}
    (hs : save b.session.tree o.path (o.content ++ ['\n']) = (t', none))
    (ht : ∃ withSuffix, target t o.source job.root job.out job.format withSuffix = .ok o.path) :
    HasPut job t cs (outs ++ [o]) (b.put t' o.path) := by
  have ⟨hk, hr⟩ := save_eq_none hs
  rw [h.keeps.locationOf_eq] at hk
  have hm : (outs ++ [o]).map (Output.location t) =
    outs.map (Output.location t) ++ [o.location t] := List.map_append
  refine ⟨h.toKeeps.put hs ⟨_, ht⟩, ?paths, ?held⟩
  case paths =>
    intro p
    simp [Batch.put, h.paths, or_comm]
  case held =>
    intro hn o' ho
    rw [hm, List.nodup_append] at hn
    obtain ho | ho := List.mem_append.mp ho
    case inl =>
      refine hk.readBytes ?_ (h.held hn.1 o' ho)
      rw [h.keeps.locationOf_eq, List.mem_singleton]
      exact hn.2.2 _ (List.mem_map_of_mem ho) _ List.mem_cons_self
    case inr => rwa [List.mem_singleton.mp ho]

-- One script is converted.
theorem convert [Libraries] (h : HasPut job t cs outs b) (hp : job.print = false) (hd : t.isDirectory job.root)
    (hf : t.isFile source) (hl : t.locationOf source ∉ cs.logFiles)
    (hx : checkSource source = .ok () → t.locationOf source ∉ outs.map (Output.location t))
    (ha : ∀ o ∈ job.extend t outs source, o.location t ∉ cs.logFiles)
    (hs : (sourceText b.session.tree source).toOption.isSome →
      (job.convert b source).failures = b.failures) :
    HasPut job t cs (job.extend t outs source) (job.convert b source) := by
  have he := h.sourceText_eq hf (fun _ => hl) fun hc => mt h.mem_map_written.mp (hx hc)
  have ha' : ∀ o ∈ outs, o.location t ∉ cs.logFiles := fun o ho => ha o (List.mem_append_left _ ho)
  cases ht : sourceText t source
  case error e =>
    have hn : job.output? t (outs.map Output.path) source = none := by rw [Job.output?, ht]
    rw [Job.extend, hn, Option.toList_none, List.append_nil, Job.convert, he, ht]
    exact h.told (.fail b source e) ha'
  case ok text =>
    have hs := hs (by rw [he, ht]; rfl)
    simp only [Job.convert, he, ht, hp, Bool.false_eq_true, if_false] at hs ⊢
    have h : HasPut job t cs outs { b with session := b.session.tellAll (documentRecords text) } :=
      h.told ⟨.tellAll _ _, rfl⟩ ha'
    obtain ⟨place, b₁, t₂, hpl, hb, hsv, hb'⟩ := Job.write_saved hs
    rw [h.place_eq hd] at hpl
    have ho : job.output? t (outs.map Output.path) source =
        some ⟨source, place.path, (documentOf text).write (some source.name) job.format⟩ := by
      rw [Job.output?, ht, hpl]
    have hx := Job.target_of_output? ho
    rw [Job.extend, ho, Option.toList_some] at ha ⊢
    exact ((h.told hb ha').put hsv hx).told hb' ha

-- A run keeps what one conversion keeps.
theorem convertAll [Libraries] (h : HasPut job t cs outs b) (hp : job.print = false)
    (hd : t.isDirectory job.root) (hf : ∀ p ∈ sources, t.isFile p)
    (hl : ∀ p ∈ sources, t.locationOf p ∉ cs.logFiles)
    (hx : ∀ p ∈ sources, checkSource p = .ok () →
      t.locationOf p ∉ (sources.foldl (job.extend t) outs).map (Output.location t))
    (ha : ∀ o ∈ sources.foldl (job.extend t) outs, o.location t ∉ cs.logFiles)
    (hs : job.Saves b sources) :
    HasPut job t cs (sources.foldl (job.extend t) outs) (sources.foldl job.convert b) := by
  induction sources generalizing outs b
  case nil => exact h
  case cons source sources hi =>
    have hm : job.extend t outs source ⊆ (source :: sources).foldl (job.extend t) outs :=
      Job.subset_foldl_extend
    have hb : outs ⊆ (source :: sources).foldl (job.extend t) outs := Job.subset_foldl_extend
    have hc := h.convert hp hd (hf _ List.mem_cons_self) (hl _ List.mem_cons_self)
      (fun hc => mt (List.map_subset _ hb ·) (hx _ List.mem_cons_self hc)) (fun o ho => ha o (hm ho)) hs.1
    exact hi hc (fun p hm => hf p (List.mem_cons_of_mem _ hm))
      (fun p hm => hl p (List.mem_cons_of_mem _ hm)) (fun p hm => hx p (List.mem_cons_of_mem _ hm)) ha hs.2

end Batch.HasPut

-- The batch that a run begins with.
def found (s : Session) (sources : List Path) : Batch :=
  { session := s.tell .info
      ("Found ".toList ++ counted sources.length "test script(s) to convert") }

theorem Job.run_told [Libraries] (job : Job) (s : Session) (sources : List Path) :
    ∃ b, (sources.foldl job.convert (found s sources)).Told b ∧
      (job.run s sources).1 = b.session := by
  rw [run]
  split
  case isTrue  => exact ⟨_, ⟨.refl _, rfl⟩, rfl⟩
  case isFalse => exact ⟨_, .tell _ _ _, rfl⟩

theorem told_found (s : Session) (sources : List Path) : Batch.Told { session := s } (found s sources) :=
  .tell _ _ _

theorem hasPut_found (job : Job) (s : Session) (sources : List Path) :
    (found s sources).HasPut job s.tree s.desk.channels [] :=
  ⟨(Batch.Keeps.start job s).told (told_found s sources), fun _ => Iff.rfl, nofun⟩

-- After the run each output is in a place of its own and holds what the script was converted to.
def Job.KeepsOutputs [Libraries] (job : Job) (s : Session) (sources : List Path) : Prop :=
  ((job.outputs s.tree sources).map (Output.location s.tree)).Nodup ∧
    ∀ o ∈ job.outputs s.tree sources, (job.run s sources).1.tree.readBytes o.path = .ok o.bytes

-- A run that can write all outputs, none of them over a script, keeps them exactly if no script finds both its
-- targets taken and different paths of outputs lead to different places. It takes a link to write over a script.
theorem Job.run_keeps_outputs_iff [Libraries] (job : Job) (s : Session) {sources : List Path}
    {patterns : Settings.Value} (hf : sourcesOf s.tree job.root patterns = .ok sources)
    (hd : s.tree.isDirectory job.root) (hp : job.print = false)
    (hs : job.Saves (found s sources) sources)
    (hl : ∀ p ∈ sources ++ (job.outputs s.tree sources).map Output.path,
      s.tree.locationOf p ∉ s.desk.channels.logFiles)
    (hx : ∀ p ∈ sources, checkSource p = .ok () →
      s.tree.locationOf p ∉ (job.outputs s.tree sources).map (Output.location s.tree)) :
    job.KeepsOutputs s sources ↔
      (∀ before source, before ++ [source] <+: sources → ¬job.Crowds s.tree before source) ∧
        ∀ o ∈ job.outputs s.tree sources, ∀ o' ∈ job.outputs s.tree sources,
          o.location s.tree = o'.location s.tree → o.path = o'.path := by
  have h := hasPut_found job s sources
  have ha : ∀ o ∈ job.outputs s.tree sources, o.location s.tree ∉ s.desk.channels.logFiles :=
    fun o ho => hl o.path (List.mem_append_right _ (List.mem_map_of_mem ho))
  have hr := h.convertAll hp hd (fun p => isFile_of_sourcesOf hf)
    (fun p hm => hl p (List.mem_append_left _ hm)) hx ha hs
  have ⟨b, hb, he⟩ := job.run_told s sources
  have hr := hr.told hb ha
  rw [KeepsOutputs, he, ← Job.nodup_paths_iff]
  constructor
  case mp =>
    intro ⟨hn, _⟩
    refine ⟨?_, fun o ho o' ho' hl => congrArg _ (List.inj_on_of_nodup_map hn ho ho' hl)⟩
    rw [map_location] at hn
    exact hn.of_map
  case mpr =>
    intro ⟨hn, hi⟩
    have hn' : ((job.outputs s.tree sources).map (Output.location s.tree)).Nodup := by
      rw [map_location]
      refine hn.map_on fun p hp p' hp' he => ?_
      obtain ⟨o, ho, rfl⟩ := List.mem_map.mp hp
      obtain ⟨o', ho', rfl⟩ := List.mem_map.mp hp'
      exact hi o ho o' ho' he
    exact ⟨hn', hr.held hn'⟩

namespace Retained

-- A directory of scripts, each with a single suite, and a log file beside it.
def shelf (scripts : List (Text × Text)) : Session :=
  let text := fun suite => "test.describe('".toList ++ suite ++ "', () => \x7b\n\x7d);".toList
  let entries := scripts.map fun (name, suite) =>
    (["tests".toList, name], Entry.file (Utf8.encode (text suite)) (.fresh 0))
  let channel : Channel := ⟨.info, [.console, .file ["run.log".toList]], false⟩
  { desk.channels := { named := [(Channel.program, channel)], parents := [(Channel.program, [])] }
    desk.tree.entries := (["tests".toList], .directory (.fresh 0)) ::
      (["run.log".toList], .file [] (.fresh 0)) :: entries
    desk.tree.changes := 1 }

def converting : Job := ⟨.ofText "tests".toList, .ofText "features".toList, .gherkin, false⟩

-- The second target is taken, and the one with its suffix is free.
def spacious : Session :=
  shelf [("a.spec.ts".toList, ['A']), ("a.test.ts".toList, ['B'])]

-- The last script finds both its targets taken.
def crowded : Session :=
  shelf [("a.spec.js".toList, ['A']), ("a.spec.ts".toList, ['B']), ("a.test.ts".toList, ['C'])]

def scripts (names : List String) : List Path :=
  names.map fun name => .ofText ("tests/".toList ++ name.toList)

def patterns : Settings.Value :=
  .list [.text "**/*.js".toList, .text "**/*.ts".toList]

theorem sourcesOf_spacious :
    sourcesOf spacious.tree converting.root patterns = .ok (scripts ["a.spec.ts", "a.test.ts"]) :=
  (sourcesOf_eq_ok (by decide +kernel)).mpr
    ⟨_, [[], scripts ["a.spec.ts", "a.test.ts"]], rfl, by decide +kernel,
      (sortedOnce_eq (by decide +kernel) (by decide +kernel)).symm⟩

theorem sourcesOf_crowded : sourcesOf crowded.tree converting.root patterns =
    .ok (scripts ["a.spec.js", "a.spec.ts", "a.test.ts"]) :=
  (sourcesOf_eq_ok (by decide +kernel)).mpr
    ⟨_, [scripts ["a.spec.js"], scripts ["a.spec.ts", "a.test.ts"]], rfl, by decide +kernel,
      (sortedOnce_eq (by decide +kernel) (by decide +kernel)).symm⟩

end Retained

open Retained Standard in
theorem Job.run_keeps_outputs_spacious :
    converting.KeepsOutputs spacious (scripts ["a.spec.ts", "a.test.ts"]) := by
  have hn : ((converting.outputs spacious.tree (scripts ["a.spec.ts", "a.test.ts"])).map
      Output.path).Nodup := by decide +kernel
  refine (converting.run_keeps_outputs_iff spacious sourcesOf_spacious (by decide +kernel) rfl
    ⟨by decide +kernel, by decide +kernel, trivial⟩ (by decide +kernel)
    fun _ _ => Job.locationOf_not_mem_outputs rfl).mpr
    ⟨Job.nodup_paths_iff.mp hn, by decide +kernel⟩

open Retained Standard in
-- The last script is written over the second, although each can be written.
theorem Job.run_loses_output :
    let sources := scripts ["a.spec.js", "a.spec.ts", "a.test.ts"]
    sourcesOf crowded.tree converting.root patterns = .ok sources ∧
      crowded.tree.isDirectory converting.root ∧ converting.print = false ∧
      converting.Saves (found crowded sources) sources ∧
      ¬converting.KeepsOutputs crowded sources ∧
      ∃ o ∈ converting.outputs crowded.tree sources,
        (converting.run crowded sources).1.tree.readBytes o.path ≠ .ok o.bytes :=
  ⟨sourcesOf_crowded, by decide +kernel, rfl,
    ⟨by decide +kernel, by decide +kernel, by decide +kernel, trivial⟩,
    fun h => absurd h.left (by decide +kernel), by decide +kernel⟩

end GherkinView.CommandLine
