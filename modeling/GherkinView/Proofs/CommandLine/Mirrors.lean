import GherkinView.Proofs.CommandLine.Retained
import GherkinView.Proofs.File.Found

namespace GherkinView.CommandLine

open File File.Tree Gherkin Journal

variable {job : Job} {t t' t₀ t₁ : Tree} {b b' b₁ b₁' : Batch} {source p q root : Path}
variable {sources : List Path} {cs : Channels} {text : Text} {logs gone ls : List Location}
variable {v : Settings.Value}

-- Whether the script has the suffix of one and holds a text.
def isReadable (t : Tree) (source : Path) : Bool :=
  (sourceText t source).toOption.isSome

-- Where the scripts are that cannot be read.
def unreadable (t : Tree) (sources : List Path) : List Location :=
  (sources.filter (!isReadable t ·)).map t.locationOf

theorem isReadable_iff : isReadable t source ↔ ∃ text, sourceText t source = .ok text := by
  rw [isReadable]
  cases sourceText t source <;> simp [Except.toOption]

theorem not_isReadable_iff : isReadable t source = false ↔ ∃ e, sourceText t source = .error e := by
  rw [isReadable]
  cases sourceText t source <;> simp [Except.toOption]

-- Scripts

theorem isFile_of_isReadable (h : isReadable t source) : t.isFile source := by
  have ⟨_, ht⟩ := isReadable_iff.mp h
  have ⟨_, _, hr⟩ := bind_eq_ok.mp ht
  have ⟨bytes, hb, _⟩ := bind_eq_ok.mp hr
  exact isFile_iff.mpr ⟨bytes, hb⟩

theorem sourceText_of_keepsBut (hk : KeepsBut ls t t') (hs : sourceText t source = .ok text)
    (hl : t.locationOf source ∉ ls) : sourceText t' source = .ok text := by
  have ⟨_, hc, hr⟩ := bind_eq_ok.mp hs
  have ⟨bytes, hb, hd⟩ := bind_eq_ok.mp hr
  exact bind_eq_ok.mpr ⟨(), hc, bind_eq_ok.mpr ⟨bytes, hk.readBytes hl hb, hd⟩⟩

-- Two paths to one file are read alike.
theorem isReadable_congr (hw : t.IsWellFormed) (hp : t.isFile p) (hq : t.isFile q)
    (hl : t.locationOf p = t.locationOf q) : isReadable t p = isReadable t q := by
  have hn : p.name = q.name := by
    have h := hw.getLast?_locationOf hp
    rw [hl, hw.getLast?_locationOf hq] at h
    exact (Option.some.inj h).symm
  have hc : checkSource p = checkSource q := by
    rw [checkSource, checkSource, Path.suffix, Path.suffix, hn]
  obtain ⟨bytes, hb⟩ := isFile_iff.mp hp
  have hb' : t.readBytes q = .ok bytes := by
    obtain ⟨l, hl', hc⟩ := readBytes_eq_ok.mp hb
    obtain ⟨_, hq', _⟩ := isFile_iff_content?.mp hq
    exact readBytes_eq_ok.mpr ⟨l, by rw [hq', ← hl, locate_eq hl'], hc⟩
  rw [isReadable, isReadable, sourceText, sourceText, hc, readText, readText, hb, hb']

theorem areFiles_unreadable (hf : ∀ p ∈ sources, t.isFile p) : t.AreFiles (unreadable t sources) := by
  intro l hl
  obtain ⟨p, hp, rfl⟩ := List.mem_map.mp hl
  have ⟨bytes, _, hc⟩ := isFile_iff_content?.mp (hf p (List.mem_of_mem_filter hp))
  exact ⟨bytes, hc⟩

theorem mem_unreadable_iff (hw : t.IsWellFormed) (hf : ∀ p ∈ sources, t.isFile p) (hp : p ∈ sources) :
    t.locationOf p ∈ unreadable t sources ↔ isReadable t p = false := by
  constructor
  case mp =>
    intro h
    have ⟨q, hq, hl⟩ := List.mem_map.mp h
    have ⟨hm, hr⟩ := List.mem_filter.mp hq
    rw [← isReadable_congr hw (hf q hm) (hf p hp) hl]
    simpa using hr
  case mpr =>
    intro h
    exact List.mem_map_of_mem (List.mem_filter.mpr ⟨hp, by rw [h]; rfl⟩)

theorem mapM_map_eq_ok {ε α β γ : Type} {f : α → Except ε β} (g : β → γ) {as : List α}
    {bs : List β} (h : as.mapM f = .ok bs) : as.mapM (fun a => (f a).map g) = .ok (bs.map g) := by
  induction as generalizing bs
  case nil => cases h; rfl
  case cons a as hi =>
    rw [List.mapM_cons] at h ⊢
    have ⟨b, ha, h⟩ := bind_eq_ok.mp h
    have ⟨bs', has, h⟩ := bind_eq_ok.mp h
    cases h
    rw [ha, hi has]
    rfl

theorem sourcesOf_without (hw : t.IsWellFormed) (hg : t.AreFiles gone) (hd : t.isDirectory root)
    (h : sourcesOf t root v = .ok sources) :
    sourcesOf (t.without gone) root v = .ok (sources.filter (t.locationOf · ∉ gone)) := by
  have ⟨patterns, found, hp, hm, hs⟩ := (sourcesOf_eq_ok (not_isFile_of_isDirectory hd)).mp h
  have hd' : (t.without gone).isDirectory root := by rwa [isDirectory_without hg]
  refine (sourcesOf_eq_ok (not_isFile_of_isDirectory hd')).mpr
    ⟨patterns, found.map (List.filter (t.locationOf · ∉ gone)), hp, ?_, ?_⟩
  case refine_1 =>
    rw [← mapM_map_eq_ok _ hm]
    congr 1
    funext x
    cases patternOf x
    case error => rfl
    case ok pattern => exact filesMatching_without hw hg root pattern
  case refine_2 =>
    have hr : ∀ p ∈ found.flatten, p.root = root.root := by
      intro p hp
      have ⟨ps, hps, hp⟩ := List.mem_flatten.mp hp
      have ⟨x, _, hx⟩ := exists_of_mem_mapM hm hps
      have ⟨pattern, _, hf⟩ := bind_eq_ok.mp hx
      exact (extends_of_filesMatching hf hp).root_eq
    rw [hs, ← sortedOnce_filter hr, List.filter_flatten]

-- Below a directory, or at the path itself.
def IsFoundFrom (t : Tree) (root p : Path) : Prop :=
  if t.isDirectory root then root.Extends p ∧ p ≠ root else p = root

theorem isFoundFrom_of_sourcesOf (h : sourcesOf t root v = .ok sources) (hp : p ∈ sources) :
    IsFoundFrom t root p := by
  by_cases hr : t.isFile root
  case pos =>
    rw [sourcesOf, if_pos hr] at h
    cases h
    rw [IsFoundFrom, if_neg fun hd => not_isFile_of_isDirectory hd hr]
    exact List.mem_singleton.mp hp
  case neg =>
    obtain ⟨_, _, _, _, _, _, found, hm, hp⟩ := filesMatching_of_mem_sourcesOf hr h hp
    rw [IsFoundFrom]
    split
    case isTrue =>
      exact ⟨extends_of_filesMatching hm hp, fun he => hr (he ▸ isFile_of_filesMatching hm hp)⟩
    case isFalse hd =>
      rw [filesMatching] at hm
      split at hm
      case h_1 => contradiction
      case h_2 =>
        cases hm
        rw [if_neg hd] at hp
        contradiction

-- There is a place for each script that is found.
theorem Job.place_isSome {taken : List Path} (h : IsFoundFrom t job.root source) :
    (job.place t taken source).toOption.isSome := by
  obtain ⟨place, hp⟩ : ∃ place, placeBelow t source job.root = .ok place := by
    rw [IsFoundFrom] at h
    rw [placeBelow]
    split
    case isFalse => exact ⟨_, rfl⟩
    case isTrue hd =>
      rw [if_pos hd] at h
      obtain ⟨place, hp⟩ := (h.left.parent h.right).below?
      rw [hp]
      exact ⟨place, rfl⟩
  have ht (withSuffix : Bool) : ∃ p, target t source job.root job.out job.format withSuffix = .ok p :=
    ⟨_, bind_eq_ok.mpr ⟨place, hp, rfl⟩⟩
  obtain ⟨plain, hp⟩ := ht false
  obtain ⟨renamed, hr⟩ := ht true
  rw [Job.place, hp, hr]
  dsimp only [bind, Except.bind]
  split <;> rfl

-- Batches

theorem save_lacks (h : Lacks logs gone t₀ t t') (hu : t.links = []) (hn : p.name ≠ []) (hd : p.name ≠ ['.', '.'])
    (hs : save t p text = (t₁, none)) :
    ∃ t₁', save t' p text = (t₁', none) ∧ Lacks logs gone t₀ t₁ t₁' := by
  rw [save] at hs ⊢
  split at hs
  case h_1 => cases hs
  case h_2 t₂ hm =>
    have hu₂ : t₂.links = [] := (keepsBut_makeDirectories hm).links.trans hu
    obtain ⟨t₂', hm', h⟩ := h.makeDirectories hm
    split at hs
    case h_1 => cases hs
    case h_2 t₃ hw =>
      cases hs
      obtain ⟨t₃', hw', h⟩ := h.writeBytes hu₂ hn hd hw
      refine ⟨t₃', ?_, h⟩
      rw [makeDirectories, hm']
      dsimp only
      rw [writeText, hw']

-- Whatever can be read and has a place is written there.
def Job.Writes [Libraries] (job : Job) (b : Batch) : List Path → Prop
  | [] => True
  | source :: sources =>
    (isReadable b.session.tree source → (job.place b.session.tree b.written source).toOption.isSome →
      (job.convert b source).failures = b.failures) ∧ job.Writes (job.convert b source) sources

-- The path that a script was found from is still a directory, or still none.
theorem Batch.Keeps.isDirectory_eq (h : b.Keeps job t cs) (hx : IsFoundFrom t job.root source)
    (hr : isReadable b.session.tree source) :
    b.session.tree.isDirectory job.root = t.isDirectory job.root := by
  rw [IsFoundFrom] at hx
  split at hx
  case isTrue hd => rw [hd, h.keeps.isDirectory hd]
  case isFalse hd =>
    rw [Bool.not_eq_true] at hd
    rw [hd, Bool.eq_false_iff, ← hx]
    exact fun hd => not_isFile_of_isDirectory hd (isFile_of_isReadable hr)

-- Of two batches that began with trees of which one lacks the files at `gone`, both have written the same
-- to the same targets.
structure Batch.Mirrors (job : Job) (t : Tree) (cs : Channels) (gone : List Location) (b b' : Batch) :
    Prop where
  keeps : b.Keeps job t cs
  channels : b'.session.desk.channels = cs
  written : b'.written = b.written
  lacks : Lacks cs.logFiles gone t b.session.tree b'.session.tree

namespace Batch.Mirrors

theorem told (h : Mirrors job t cs gone b b') (ht : b.Told b₁) (ht' : b'.Told b₁') :
    Mirrors job t cs gone b₁ b₁' where
  keeps := h.keeps.told ht
  channels := ht'.desk.channels.trans h.channels
  written := by rw [ht.written, ht'.written, h.written]
  lacks := h.lacks.same (h.keeps.channels ▸ ht.desk.same) (h.channels ▸ ht'.desk.same)

theorem put (h : Mirrors job t cs gone b b') (hu : t.links = []) (hs : save b.session.tree p text = (t₁, none))
    (ht : ∃ source withSuffix, target t source job.root job.out job.format withSuffix = .ok p) :
    ∃ t₁', save b'.session.tree p text = (t₁', none) ∧
      Mirrors job t cs gone (b.put t₁ p) (b'.put t₁' p) := by
  have ⟨_, _, hp⟩ := ht
  have ⟨hn, hd⟩ := name_target_ne hp
  have ⟨t₁', hs', hl⟩ := save_lacks h.lacks (h.keeps.keeps.links.trans hu) hn hd hs
  exact ⟨t₁', hs', h.keeps.put hs ht, h.channels, by rw [Batch.put, Batch.put, h.written], hl⟩

-- A write without failure goes alike.
theorem write {d : Document} (h : Mirrors job t cs gone b b') (hu : t.links = [])
    (hd : b.session.tree.isDirectory job.root = t.isDirectory job.root)
    (hf : (job.write b source d text).failures = b.failures) :
    Mirrors job t cs gone (job.write b source d text) (job.write b' source d text) := by
  obtain ⟨place, b₁, t₂, hp, hb, hs, ht⟩ := Job.write_saved hf
  have hx : ∃ source withSuffix,
      target t source job.root job.out job.format withSuffix = .ok place.path := by
    have ⟨withSuffix, ht⟩ := Job.target_of_place hp
    exact ⟨source, withSuffix, by rwa [Job.target_congr hd] at ht⟩
  have hp' : job.place b'.session.tree b'.written source = .ok place := by
    rw [← hp]
    exact Job.place_congr h.lacks.isDirectory_eq fun p => by rw [h.written]
  have ⟨hw, _⟩ := b'.told_warned source place
  obtain ⟨t₂', hs', h₂⟩ := (h.told hb hw).put hu hs hx
  have ⟨message, he⟩ := Job.write_eq d text hp'
  rw [hs'] at he
  rw [he]
  exact h₂.told ht (.tell _ _ _)

-- A script that can be read is converted alike.
theorem convert_readable [Libraries] (h : Mirrors job t cs gone b b') (hu : t.links = []) (hf : t.isFile source)
    (hx : IsFoundFrom t job.root source)
    (hl : checkSource source = .ok () → t.locationOf source ∉ cs.logFiles)
    (hr : isReadable t source) (hg : t.locationOf source ∉ gone)
    (hs : (job.convert b source).failures = b.failures) :
    Mirrors job t cs gone (job.convert b source) (job.convert b' source) := by
  have ⟨text, ht⟩ := isReadable_iff.mp hr
  have hc : checkSource source = .ok () := have ⟨_, hc, _⟩ := bind_eq_ok.mp ht; hc
  have ht₁ : sourceText b.session.tree source = .ok text := (h.keeps.sourceText_eq_of_unlinked hu hf hl).trans ht
  have ht₁' : sourceText b'.session.tree source = .ok text := by
    refine sourceText_of_keepsBut h.lacks.keepsBut ht₁ ?_
    rw [h.keeps.keeps.locationOf_eq]
    exact List.not_mem_append (hl hc) hg
  have h : Mirrors job t cs gone
      { b with session := b.session.tellAll (documentRecords text) }
      { b' with session := b'.session.tellAll (documentRecords text) } :=
    h.told ⟨.tellAll _ _, rfl⟩ ⟨.tellAll _ _, rfl⟩
  have ht₂ := (h.keeps.sourceText_eq_of_unlinked hu hf hl).trans ht
  have hd := h.keeps.isDirectory_eq hx (isReadable_iff.mpr ⟨text, ht₂⟩)
  simp only [Job.convert, ht₁, ht₁'] at hs ⊢
  split
  case isTrue => exact h.told ⟨.refl _, rfl⟩ ⟨.refl _, rfl⟩
  case isFalse hp =>
    rw [if_neg hp] at hs
    exact h.write hu hd hs

-- One that cannot is told of and counted.
theorem convert_unreadable [Libraries] (h : Mirrors job t cs gone b b') (hu : t.links = []) (hf : t.isFile source)
    (hl : checkSource source = .ok () → t.locationOf source ∉ cs.logFiles)
    (hr : isReadable t source = false) :
    (job.convert b source).failures = b.failures + 1 ∧ Mirrors job t cs gone (job.convert b source) b' := by
  have ⟨e, ht⟩ := not_isReadable_iff.mp hr
  rw [Job.convert, h.keeps.sourceText_eq_of_unlinked hu hf hl, ht]
  exact ⟨rfl, h.told (.fail b source e) ⟨.refl _, rfl⟩⟩

-- Induction on the scripts: those that cannot be read are skipped on the one side.
theorem convertAll [Libraries] (h : Mirrors job t cs gone b b') (hu : t.links = []) (hf : ∀ p ∈ sources, t.isFile p)
    (hx : ∀ p ∈ sources, IsFoundFrom t job.root p)
    (hl : ∀ p ∈ sources, checkSource p = .ok () → t.locationOf p ∉ cs.logFiles)
    (hg : ∀ p ∈ sources, t.locationOf p ∈ gone ↔ isReadable t p = false) (hw : job.Writes b sources) :
    let rest := sources.filter (t.locationOf · ∉ gone)
    Mirrors job t cs gone (sources.foldl job.convert b) (rest.foldl job.convert b') ∧
      (sources.foldl job.convert b).failures = b.failures + sources.countP (!isReadable t ·) := by
  induction sources generalizing b b'
  case nil => exact ⟨h, rfl⟩
  case cons source sources hi =>
    have ⟨hf₁, hf⟩ := List.forall_mem_cons.mp hf
    have ⟨hx₁, hx⟩ := List.forall_mem_cons.mp hx
    have ⟨hl₁, hl⟩ := List.forall_mem_cons.mp hl
    have ⟨hg₁, hg⟩ := List.forall_mem_cons.mp hg
    rw [List.foldl_cons, List.countP_cons]
    cases hr : isReadable t source
    case false =>
      have hm := hg₁.mpr hr
      have ⟨hc, h⟩ := h.convert_unreadable hu hf₁ hl₁ hr
      have ⟨h, hn⟩ := hi h hf hx hl hg hw.2
      rw [List.filter_cons_of_neg (by simpa using hm), hn, hc]
      exact ⟨h, Nat.add_right_comm _ _ _⟩
    case true =>
      have hm : t.locationOf source ∉ gone := mt hg₁.mp (by rw [hr]; nofun)
      have hr' : isReadable b.session.tree source := by
        rw [isReadable, h.keeps.sourceText_eq_of_unlinked hu hf₁ hl₁]
        exact hr
      have hx₁' : IsFoundFrom b.session.tree job.root source := by
        rwa [IsFoundFrom, h.keeps.isDirectory_eq hx₁ hr']
      have hs := hw.1 hr' (Job.place_isSome hx₁')
      have ⟨h, hn⟩ := hi (h.convert_readable hu hf₁ hx₁ hl₁ hr hm hs) hf hx hl hg hw.2
      rw [List.filter_cons_of_pos (by simpa using hm), hn, hs]
      exact ⟨h, rfl⟩

end Batch.Mirrors

end GherkinView.CommandLine
