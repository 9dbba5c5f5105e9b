import GherkinView.CommandLine.Run
import GherkinView.Proofs.CommandLine.Start
import GherkinView.Proofs.File.Without

namespace GherkinView

open File File.Tree

variable {t t₁ : Tree} {l : Location} {p : Path} {gone : List Location}

-- Reading

theorem File.Tree.exists?_without (hg : t.AreFiles gone) (hl : t.locationOf p ∉ gone) :
    (t.without gone).exists? p = t.exists? p := by
  rw [exists?, exists?, find_without hg hl]

theorem File.Tree.named?_without {name : Text} (hg : t.AreFiles gone)
    (hl : t.locationOf (.ofText name) ∉ gone) :
    (t.without gone).named? name = t.named? name := by
  rw [named?, named?, find_without hg hl]

theorem File.Tree.readBytes_without (hg : t.AreFiles gone) (hl : t.locationOf p ∉ gone) (he : t.exists? p) :
    (t.without gone).readBytes p = t.readBytes p := by
  have hf : (t.without gone).find p = t.find p := by
    have h := find_without hg hl
    rw [exists?] at he
    cases hf : t.find p <;> rw [hf] at h he
    case error => contradiction
    case ok found =>
      cases hf' : (t.without gone).find p <;> rw [hf'] at h <;> cases h
      rfl
  rw [readBytes, readBytes, hf]

namespace Settings

variable {s : Settings}

-- The files that a load reads, as far as they are there.
def files (s : Settings) (t : Tree) : List Path :=
  (s.variablePath? t).toList ++ s.path :: (s.environment?.map s.environmentPath).toList

theorem find?_isFile_without (hg : t.AreFiles gone) {ps : List Path}
    (hp : ∀ p ∈ ps.find? t.isFile, t.locationOf p ∉ gone) :
    ps.find? (t.without gone).isFile = ps.find? t.isFile := by
  induction ps
  case nil => rfl
  case cons p ps hi =>
    rw [List.find?_cons] at hp
    rw [List.find?_cons, List.find?_cons]
    cases hf : t.isFile p <;> rw [hf] at hp
    case true =>
      have hf' : (t.without gone).isFile p := (isFile_without hg).mpr ⟨hf, hp p rfl⟩
      rw [hf']
    case false =>
      have hf' : (t.without gone).isFile p = false := by
        rw [Bool.eq_false_iff]
        exact fun h => absurd ((isFile_without hg).mp h).left (by rw [hf]; nofun)
      rw [hf']
      exact hi hp

section

variable [Libraries]

theorem readEntries_without (hg : t.AreFiles gone) (hl : t.locationOf p ∉ gone) (he : t.exists? p) :
    readEntries (t.without gone) p = readEntries t p := by
  rw [readEntries, readEntries, readBytes_without hg hl he]

theorem readVariables_without (hg : t.AreFiles gone) (hv : s.variableFile = none)
    (hl : ∀ p ∈ s.variablePath? t, t.locationOf p ∉ gone) :
    s.readVariables (t.without gone) = s.readVariables t := by
  have hn (t : Tree) : s.variablePath? t = nearest? t implicitVariableFile := by
    rw [variablePath?, hv]
    rfl
  rw [hn] at hl
  have hp : s.variablePath? (t.without gone) = s.variablePath? t := by
    rw [hn, hn]
    exact find?_isFile_without hg hl
  rw [readVariables, readVariables, hp, hn]
  cases hf : nearest? t implicitVariableFile
  case none => rfl
  case some p =>
    have he := exists_of_isFile (List.find?_some hf)
    dsimp only
    rw [readText, readText, readBytes_without hg (hl p hf) he]

theorem readMain_without (hg : t.AreFiles gone) (hl : t.locationOf s.path ∉ gone) :
    s.readMain (t.without gone) = s.readMain t := by
  rw [readMain, readMain, exists?_without hg hl]
  split
  case isFalse    => rfl
  case isTrue he => exact readEntries_without hg hl he

theorem readUpper_without (hg : t.AreFiles gone)
    (hl : ∀ name ∈ s.environment?, t.locationOf (s.environmentPath name) ∉ gone) :
    s.readUpper (t.without gone) = s.readUpper t := by
  rw [readUpper, readUpper]
  cases hn : s.environment?
  case none => rfl
  case some name =>
    dsimp only
    have hl := hl name hn
    rw [exists?_without hg hl]
    split
    case isFalse   => rfl
    case isTrue he => rw [readEntries_without hg hl he]

theorem load_without (hg : t.AreFiles gone) (hv : s.variableFile = none)
    (hl : ∀ p ∈ s.files t, t.locationOf p ∉ gone) : s.load (t.without gone) = s.load t := by
  simp only [files, List.mem_append, List.mem_cons, Option.mem_toList] at hl
  rw [load, load, readVariables_without hg hv fun p hp => hl p (.inl hp)]
  cases s.readVariables t
  case error => rfl
  case ok r =>
    dsimp only
    have hm := readMain_without (s := { s with scope := r.1 }) hg (hl s.path (.inr (.inl rfl)))
    have hu := readUpper_without (s := { s with scope := r.1 }) hg fun name hn =>
      hl (s.environmentPath name) (.inr (.inr (Option.mem_map_of_mem _ hn)))
    rw [loadLayers, loadLayers, hm, hu]

end

end Settings

-- Setting up

theorem File.Tree.openLog_eq_ok (h : t.openLog p = .ok (t₁, l)) :
    SamePaths t t₁ ∧ ∀ k, k ≠ l → t₁.content? k = t.content? k := by
  obtain ⟨_, rfl | ⟨_, _, hs⟩⟩ := openLog_eq_ok_cases h
  · exact ⟨.refl _, fun _ _ => rfl⟩
  · exact ⟨hs.toSamePaths, fun k hk => (hs.content? k).trans (if_neg hk)⟩

namespace Journal

variable {d d₁ : Desk} {name : Text} {level file : Option Text} {c : Channel}

def Desk.without (d : Desk) (gone : List Location) : Desk :=
  { d with tree := d.tree.without gone }

theorem Channels.mem_logFiles_set (cs : Channels) (name : Text) (h : .file l ∈ c.handlers) :
    l ∈ (cs.set name c).logFiles := by
  have hl := Channel.mem_logFiles h
  rw [set, logFiles]
  split
  case isTrue  => exact List.mem_append_left _ hl
  case isFalse => exact List.mem_append_right _ (List.mem_append_left _ hl)

-- Unless the log file is gone, it is opened alike.
theorem setUp_without (h : d.setUp name level file = (d₁, none)) (hg : d₁.tree.AreFiles gone)
    (hl : ∀ l ∈ d₁.channels.logFiles, l ∉ gone) :
    d.tree.AreFiles gone ∧ SamePaths d.tree d₁.tree ∧
      (d.without gone).setUp name level file = (d₁.without gone, none) := by
  rw [Desk.setUp, Desk.configure] at h ⊢
  dsimp only [Desk.introduce] at h ⊢
  cases hm : (level.filter (!·.isEmpty)).mapM levelNamed <;> rw [hm] at h
  case error => cases h
  case ok number =>
    dsimp only [Desk.without] at h ⊢
    split at h
    case h_1 => cases h; exact ⟨hg, .refl _, rfl⟩
    case h_2 f _ =>
      split at h
      case h_1 => cases h
      case h_2 t₁ l ho =>
        cases h
        have hn := hl l (Channels.mem_logFiles_set _ _ (List.mem_append_right _ List.mem_cons_self))
        obtain ⟨hh, hk⟩ := openLog_eq_ok ho
        have hg : d.tree.AreFiles gone := hg.mono fun k hm => (hk k fun he => hn (he ▸ hm)).symm
        have ho' : (d.tree.without gone).openLog (logPath (d.tree.without gone) (.ofText f)) =
          .ok (t₁.without gone, l) := openLog_without hg hn ho
        rw [ho']
        exact ⟨hg, hh, rfl⟩

end Journal

namespace CommandLine

open Journal Settings

variable {d d₁ : Desk} {s : Session} {settings loaded : Settings} {r : ConvertRequest}

def Session.without (s : Session) (gone : List Location) : Session :=
  { s with desk := s.desk.without gone }

theorem setUpProgram_without (h : setUpProgram settings d = (d₁, none)) (hg : d₁.tree.AreFiles gone)
    (hl : ∀ l ∈ d₁.channels.logFiles, l ∉ gone) :
    d.tree.AreFiles gone ∧ SamePaths d.tree d₁.tree ∧
      setUpProgram settings (d.without gone) = (d₁.without gone, none) := by
  rw [setUpProgram] at h ⊢
  split at h
  case h_1 => cases h
  case h_2 level _ =>
    split at h
    case h_1 file _ => exact setUp_without h hg hl
    case h_2 =>
      split at h
      case h_1 => cases h
      case h_2 hn => exact absurd h (hn _)

theorem start_without [Libraries] (hs : start { desk := { tree := t } } settings = .ready s loaded)
    (hv : settings.variableFile = none) (hg : s.tree.AreFiles gone)
    (hl : ∀ l ∈ s.desk.channels.logFiles, l ∉ gone)
    (hc : ∀ p ∈ settings.files t, t.locationOf p ∉ gone) :
    t.AreFiles gone ∧ SamePaths t s.tree ∧
      start { desk := { tree := t.without gone } } settings = .ready (s.without gone) loaded := by
  obtain ⟨shown, hr⟩ := tellAll_fresh (d := { tree := t }) rfl (settings.load t).records
  rw [start] at hs ⊢
  dsimp only [Session.tree, Session.tellAll] at hs ⊢
  rw [hr] at hs
  split at hs
  case h_1 => split at hs <;> cases hs
  case h_2 hf =>
    split at hs
    case h_2 => cases hs
    case h_1 desk hu =>
      cases hs
      obtain ⟨hg', hh, hu'⟩ := setUpProgram_without hu hg hl
      refine ⟨hg', hh, ?_⟩
      rw [load_without hg' hv hc, hr, hf]
      dsimp only [Desk.without] at hu'
      rw [hu']
      rfl

namespace Request

variable {t' : Tree} {ws : Words} {args : List Text}

theorem readConvert?_congr (h : readConvert? t ws = some r) (hn : t'.named? r.path = t.named? r.path) :
    readConvert? t' ws = some r := by
  rw [readConvert?] at h ⊢
  split at h
  case h_2 => cases h
  case h_1 path ho =>
    have ⟨format, hf, h⟩ := Option.bind_eq_some_iff.mp h
    refine Option.bind_eq_some_iff.mpr ⟨format, hf, ?_⟩
    split at h
    case isTrue => cases h
    case isFalse he =>
      cases h
      rw [hn, if_neg he]
      rfl

-- The words of a command that asks for a conversion do not depend on the tree.
theorem read?_eq_convert [Libraries] (h : read? t args = some (.convert r)) : ∃ ws, readConvert? t ws = some r ∧
    ∀ t', readConvert? t' ws = some r → read? t' args = some (.convert r) := by
  simp only [read?] at h ⊢
  have ⟨ws, hw, h⟩ := Option.bind_eq_some_iff.mp h
  split at h
  case h_1 => split at h <;> cases h
  case h_3 => cases h
  case h_2 ho hws =>
    split at h
    case isFalse =>
      split at h
      case isFalse => cases h
      case isTrue =>
        have ⟨ws, _, h⟩ := Option.bind_eq_some_iff.mp h
        split at h
        case isTrue  => cases h
        case isFalse => have ⟨_, _, h⟩ := Option.map_eq_some_iff.mp h; cases h
    case isTrue hc =>
      have ⟨ws', hws', h⟩ := Option.bind_eq_some_iff.mp h
      split at h
      case isTrue => cases h
      case isFalse hh =>
        obtain ⟨_, hr, he⟩ := Option.map_eq_some_iff.mp h
        cases he
        refine ⟨ws', hr, fun t' hr' => Option.bind_eq_some_iff.mpr ⟨ws, hw, ?_⟩⟩
        rw [ho, hws]
        dsimp only
        rw [if_pos hc]
        refine Option.bind_eq_some_iff.mpr ⟨ws', hws', ?_⟩
        rw [if_neg hh]
        exact Option.map_eq_some_iff.mpr ⟨r, hr', rfl⟩

-- A command is read alike on trees that have the path of a conversion in common.
theorem read?_congr [Libraries] (h : read? t args = some (.convert r)) (hn : t'.named? r.path = t.named? r.path) :
    read? t' args = some (.convert r) :=
  have ⟨_, hr, hall⟩ := read?_eq_convert h
  hall t' (readConvert?_congr hr hn)

end Request

end CommandLine

end GherkinView
