import GherkinView.Proofs.CommandLine.Unreadable
import GherkinView.Proofs.File.Spared
import GherkinView.Proofs.Journal.Calls

namespace GherkinView.CommandLine

open File File.Tree Gherkin Journal

variable {job : Job} {t t' : Tree} {b b' : Batch} {source p root : Path} {sources : List Path}
variable {cs : Channels} {text : Text} {s s' : Session} {settings : Settings} {r : ConvertRequest} {l : Location}

-- Batches

theorem spares_save {failure : Option Error} (h : save t p text = (t', failure)) :
    Spares [t.locationOf p] t t' := by
  rw [save] at h
  split at h
  case h_1 => cases h; exact .refl _ _
  case h_2 t₁ hm =>
    have hs := (Spares.makeDirectories hm).mono (List.nil_subset [t.locationOf p])
    split at h
    case h_1      => cases h; exact hs
    case h_2 hw   =>
      cases h
      exact hs.trans (hs.locationOf_eq p ▸ .writeBytes hw)

-- A batch has written to targets of the scripts only, and to the log files.
structure Batch.Confined (job : Job) (t : Tree) (cs : Channels) (sources : List Path) (b : Batch) : Prop where
  channels : b.session.desk.channels = cs
  targets : ∀ p ∈ b.written, ∃ source ∈ sources, ∃ withSuffix,
    target t source job.root job.out job.format withSuffix = .ok p
  spares : Spares (cs.logFiles ++ b.written.map t.locationOf) t b.session.tree

namespace Batch.Confined

theorem start (job : Job) (s : Session) (sources : List Path) :
    Confined job s.tree s.desk.channels sources { session := s } :=
  ⟨rfl, nofun, .refl _ _⟩

theorem told (h : Confined job t cs sources b) (ht : b.Told b') : Confined job t cs sources b' where
  channels := ht.desk.channels.trans h.channels
  targets := ht.written ▸ h.targets
  spares := by
    have hs := h.channels ▸ ht.desk.same.spares
    exact ht.written ▸ h.spares.trans (hs.mono (List.subset_append_left _ _))

-- One more target is written to, or not even that.
theorem put {failure : Option Error} (h : Confined job t cs sources b) (hm : source ∈ sources)
    (ht : ∃ withSuffix, target t source job.root job.out job.format withSuffix = .ok p)
    (hs : save b.session.tree p text = (t', failure)) : Confined job t cs sources (b.put t' p) where
  channels := h.channels
  targets p' hp := by
    obtain rfl | hp := List.mem_cons.mp hp
    case inl => exact ⟨source, hm, ht⟩
    case inr => exact h.targets p' hp
  spares := by
    have hk := spares_save hs
    rw [h.spares.locationOf_eq] at hk
    refine (h.spares.mono ?_).trans (hk.mono ?_)
    case refine_1 =>
      exact List.append_subset.mpr ⟨List.subset_append_left _ _,
        List.Subset.trans (List.subset_cons_self _ _) (List.subset_append_right _ _)⟩
    case refine_2 => exact List.cons_subset.mpr ⟨List.mem_append_right _ List.mem_cons_self, List.nil_subset _⟩

theorem write [Libraries] {d : Document} (h : Confined job t cs sources b)
    (hr : ∀ source ∈ sources, t.exists? job.root) (hm : source ∈ sources) :
    Confined job t cs sources (job.write b source d text) := by
  cases hp : job.place b.session.tree b.written source
  case error e =>
    simp only [Job.write, hp]
    exact h.told (.fail b source e)
  case ok place =>
    obtain ⟨withSuffix, ht⟩ := Job.target_of_place hp
    rw [Job.target_congr (h.spares.isDirectory_eq (hr source hm))] at ht
    obtain ⟨hw, _⟩ := b.told_warned source place
    obtain ⟨message, he⟩ := Job.write_eq d text hp
    rw [he]
    split
    case h_1 hs => exact ((h.told hw).put hm ⟨withSuffix, ht⟩ hs).told (.fail _ source _)
    case h_2 hs => exact ((h.told hw).put hm ⟨withSuffix, ht⟩ hs).told (.tell _ _ _)

theorem convert [Libraries] (h : Confined job t cs sources b) (hr : ∀ source ∈ sources, t.exists? job.root)
    (hm : source ∈ sources) : Confined job t cs sources (job.convert b source) := by
  rw [Job.convert]
  split
  case h_1 e _ => exact h.told (.fail b source e)
  case h_2 text _ =>
    have h : Confined job t cs sources { b with session := b.session.tellAll (documentRecords text) } :=
      h.told ⟨.tellAll _ _, rfl⟩
    dsimp only
    split
    case isTrue  => exact h.told ⟨.refl _, rfl⟩
    case isFalse => exact h.write hr hm

theorem convertAll [Libraries] {rest : List Path} (h : Confined job t cs sources b)
    (hr : ∀ source ∈ sources, t.exists? job.root) (hm : rest ⊆ sources) :
    Confined job t cs sources (rest.foldl job.convert b) := by
  induction rest generalizing b
  case nil => exact h
  case cons source rest hi =>
    have ⟨hs, hm⟩ := List.cons_subset.mp hm
    exact hi (h.convert hr hs) hm

end Batch.Confined

-- Conversions

-- All that a start does to the tree is to open the log.
def OpensLog (t : Tree) (d : Desk) : Prop :=
  d.tree = t ∨ ∃ p l, t.openLog p = .ok (d.tree, l) ∧ l ∈ d.channels.logFiles

namespace OpensLog

variable {d : Desk}

theorem spares (h : OpensLog t d) : Spares d.channels.logFiles t d.tree := by
  obtain h | ⟨p, l, ho, hl⟩ := h
  case inl => rw [h]; exact .refl _ _
  case inr => exact (Spares.openLog ho).mono (List.cons_subset.mpr ⟨hl, List.nil_subset _⟩)

theorem setUp (d : Desk) (name : Text) (level file : Option Text) :
    OpensLog d.tree (d.setUp name level file).1 := by
  obtain ⟨_, e, he⟩ | ⟨_, t, failure, he, ht⟩ := setUp_cases d name level file <;> rw [he]
  case inl => exact .inl rfl
  case inr =>
    obtain rfl | ⟨p, l, ho, hl⟩ := ht
    · exact .inl rfl
    · exact .inr ⟨p, l, ho, Channels.mem_logFiles_set _ _ hl⟩

theorem setUpProgram (settings : Settings) (d : Desk) : OpensLog d.tree (setUpProgram settings d).1 := by
  rw [CommandLine.setUpProgram]
  split
  case h_1 => exact .inl rfl
  case h_2 level _ =>
    split
    case h_1 file _ => exact setUp d _ level file
    case h_2 =>
      have ho := setUp d Channel.program level none
      split
      case h_1 hd => rwa [hd] at ho
      case h_2    => exact ho

theorem start [Libraries] (settings : Settings) (t : Tree) :
    OpensLog t (start { desk := { tree := t } } settings).session.desk := by
  obtain ⟨shown, hr⟩ := tellAll_fresh (d := { tree := t }) rfl (settings.load t).records
  rw [CommandLine.start]
  dsimp only [Session.tree, Session.tellAll]
  rw [hr]
  split
  case h_1 => split <;> exact .inl rfl
  case h_2 =>
    have ho := setUpProgram (settings.load t).settings { tree := t, shown }
    split <;> rename_i hd <;> rwa [hd] at ho

end OpensLog

-- Runs

variable {args : List Text} {scope : Settings.Variables}

theorem run_of_failed [Libraries] {ending : Ending} (hr : Request.read? t args = some (.convert r))
    (hs : start { desk := { tree := t } } (r.unloaded scope) = .ended s ending) (edits : List (List Edit)) :
    run args scope t edits = { session := s, ending } := by
  rw [ConvertRequest.unloaded] at hs
  rw [run, begin, hr]
  dsimp only
  rw [hs]
  rfl

section

open Unreadable Retained Request Standard

end

end GherkinView.CommandLine
