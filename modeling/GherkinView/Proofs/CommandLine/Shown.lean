import GherkinView.Proofs.CommandLine.Confined
import GherkinView.Proofs.CommandLine.Requests
import GherkinView.Proofs.Gherkin.Faithful
import GherkinView.Proofs.Preview.Runs
import GherkinView.Proofs.Standard

namespace GherkinView.CommandLine

open File File.Tree Gherkin Journal

variable {job : Job} {t : Tree} {s s' : Session} {settings loaded : Settings} {p : Path} {file : Text}
variable {f : Format} {view : Option Text}

-- The view stands alone in the output, or there is none and the run fails.
def Outcome.Shows [Libraries] (o : Outcome) (view : Option Text) : Prop :=
  match view with
  | some content => o.session.printed = Libraries.unstyled content ++ ['\n'] ∧ o.ending.code = 0
  | none => o.session.printed = [] ∧ o.ending.code = 1

-- What there is to be shown of a file.
def viewOf (t : Tree) (file : Text) (f : Format) : Option Text :=
  (Preview.output { path := .ofText file, format := f.name } t).toOption

-- Starts

theorem printed_start [Libraries] (s : Session) (settings : Settings) :
    (start s settings).session.printed = s.printed := by
  rw [start]
  split
  case h_1 => split <;> rfl
  case h_2 => split <;> rfl

theorem code_of_start_eq_ended [Libraries] {ending : Ending} (h : start s settings = .ended s' ending) :
    ending.code = 1 := by
  rw [start] at h
  split at h
  case h_1 => split at h <;> cases h <;> rfl
  case h_2 => split at h <;> cases h; rfl

theorem eq_load_of_start_eq_ready [Libraries] (h : start { desk := { tree := t } } settings = .ready s loaded) :
    (settings.load t).failure = none ∧ loaded = (settings.load t).settings := by
  rw [start] at h
  split at h
  case h_1 => split at h <;> cases h
  case h_2 hf => split at h <;> cases h; exact ⟨hf, rfl⟩

theorem OpensLog.keepsBut {d : Desk} (h : OpensLog t d) : KeepsBut [] t d.tree := by
  obtain h | ⟨_, _, ho, _⟩ := h
  case inl => rw [h]; exact .refl _ _
  case inr => exact keepsBut_openLog ho

-- Conversions

-- What is told of the scripts that are found goes into this one before it is read.
structure Session.LogsInto (s : Session) (p : Path) : Prop where
  script : checkSource p = .ok ()
  level : s.desk.channels.effectiveLevel Channel.program ≤ Level.info
  file : s.tree.locationOf p ∈ s.desk.channels.logFiles

theorem sourceText_found {sources : List Path} (hf : s.tree.isFile p) (hl : ¬s.LogsInto p) :
    sourceText (found s sources).session.tree p = sourceText s.tree p := by
  by_cases he : s.desk.channels.effectiveLevel Channel.program ≤ Level.info
  case pos =>
    have hk : KeepsBut s.desk.channels.logFiles s.tree (found s sources).session.tree :=
      (Desk.Told.tellAll _ _).keeps
    exact sourceText_eq_of_keepsBut hk hf fun hc hm => hl ⟨hc, he, hm⟩
  case neg =>
    have hd (message : Text) : s.desk.tell ⟨.info, Channel.program, message⟩ = s.desk := by
      refine if_neg ?_
      simp [Channels.isEnabled, he]
    have hs : (found s sources).session.tree = s.tree := congrArg Desk.tree (hd _)
    rw [hs]

section Prints

variable {b : Batch} {text : Text} {e : Error}

theorem viewOf_eq_none (h : sourceText t (.ofText file) = .error e) : viewOf t file f = none := by
  rw [viewOf, Preview.output, h]
  rfl

theorem viewOf_eq_some (h : sourceText t (.ofText file) = .ok text) :
    viewOf t file f = some ((documentOf text).write (some (Path.ofText file).name) f) := by
  have hw := (documentOf text).writeAs_name f (some (Path.ofText file).name)
  rw [viewOf, Preview.output, h]
  exact congrArg Except.toOption hw

theorem Job.convert_eq_fail [Libraries] (h : sourceText b.session.tree p = .error e) :
    job.convert b p = b.fail p e := by
  rw [convert, h]

theorem Job.convert_eq_print [Libraries] (hp : job.print = true) (h : sourceText b.session.tree p = .ok text) :
    job.convert b p = { b with
      session := (b.session.tellAll (documentRecords text)).print
        ((documentOf text).write (some p.name) job.format) } := by
  rw [convert, h]
  exact if_pos hp

-- A job with one script shows the view of it.
theorem Job.run_shows [Libraries] (hp : job.print = true) (hr : job.root = .ofText file) (hs : s.printed = [])
    (hf : s.tree.isFile job.root) (hl : ¬s.LogsInto job.root) :
    Outcome.Shows { session := (job.run s [job.root]).1, ending := (job.run s [job.root]).2 }
      (viewOf s.tree file job.format) := by
  have ht : sourceText (found s [job.root]).session.tree job.root = sourceText s.tree (.ofText file) :=
    hr ▸ sourceText_found hf hl
  cases hv : sourceText s.tree (.ofText file)
  case error e =>
    have hc := job.convert_eq_fail (ht.trans hv)
    have he : job.run s [job.root] =
        (((found s [job.root]).fail job.root e |>.tell .error
          ("Completed with ".toList ++ counted 1 "failure(s)")).session, .failed) := by
      rw [run, ← found, List.foldl_cons, List.foldl_nil, hc]
      rfl
    rw [viewOf_eq_none hv, he]
    exact ⟨hs, rfl⟩
  case ok text =>
    have hc := convert_eq_print hp (ht.trans hv)
    have he : job.run s [job.root] =
        (((found s [job.root]).session.tellAll (documentRecords text)).print
          ((documentOf text).write (some job.root.name) job.format), .done) := by
      rw [run, ← found, List.foldl_cons, List.foldl_nil, hc]
      rfl
    have hn : (found s [job.root]).session.printed = [] := hs
    rw [viewOf_eq_some hv, he, hr]
    exact ⟨congrArg (· ++ _ ++ _) hn, rfl⟩

end Prints

-- Previews

section Views

variable {w : Watching} {content : Text} {e : Error}

theorem Watching.refresh_of_ok [Libraries] (above : List Text) (h : w.preview.output w.session.tree = .ok content) :
    ∃ rs p, w.refresh above = (true, ⟨(above ++ [content]).foldl Session.print (w.session.tellAll rs), p⟩) := by
  obtain ⟨hu, hp⟩ := Preview.refresh_ok h
  rw [refresh]
  rw [if_pos hu, hp]
  exact ⟨_, _, rfl⟩

theorem Watching.refresh_of_error [Libraries] (above : List Text) (h : w.preview.output w.session.tree = .error e) :
    ∃ rs p, w.refresh above = (false, ⟨(w.session.tellAll rs).complain e.message, p⟩) := by
  obtain ⟨hu, hp⟩ := Preview.refresh_error h
  rw [refresh]
  rw [hu, hp]
  exact ⟨_, _, rfl⟩

end Views

-- A preview that is not watched is over when it has shown the view.
theorem preview_shows [Libraries] {r : PreviewRequest} (hw : r.watch = false) (hs : s.printed = []) :
    ∃ s' ending, preview r settings s = .over s' ending ∧
      Outcome.Shows { session := s', ending } (viewOf s.tree r.path r.format) := by
  let p : Preview := { path := .ofText r.path, format := r.format.name }
  have ho : (p.look s.tree).2.output s.tree = p.output s.tree := p.output_look s.tree
  rw [preview, hw, viewOf]
  dsimp only
  cases hv : p.output s.tree
  case ok content =>
    obtain ⟨rs, p', hr⟩ := Watching.refresh_of_ok (w := ⟨s, (p.look s.tree).2⟩) [] (ho.trans hv)
    rw [hr]
    refine ⟨_, _, rfl, ?_, rfl⟩
    exact congrArg (· ++ _ ++ _) hs
  case error e =>
    obtain ⟨rs, p', hr⟩ := Watching.refresh_of_error (w := ⟨s, (p.look s.tree).2⟩) [] (ho.trans hv)
    rw [hr]
    exact ⟨_, _, rfl, hs, rfl⟩

-- Runs

section Runs

variable {c : Choice} {scope : Settings.Variables}

-- The settings that are asked for, before any file of them is read.
def Choice.unloaded (c : Choice) (scope : Settings.Variables) : Settings :=
  { path := .ofText (c.settings.getD Request.defaultSettings), environment := c.environment, scope }

-- What there is to be shown of a file by a command that starts with these settings.
def shown [Libraries] (t : Tree) (settings : Settings) (file : Text) (f : Format) : Option Text :=
  match start { desk := { tree := t } } settings with
  | .ready _ _ => viewOf t file f
  | .ended _ _ => none

theorem isFile_of_isFileNamed (h : t.isFileNamed file) : t.isFile (.ofText file) := by
  rw [isFileNamed] at h
  split at h
  case h_2 => contradiction
  case h_1 bytes stamp hn =>
    obtain ⟨⟨l, e⟩, hf, hn⟩ := Option.bind_eq_some_iff.mp hn
    have he : e = .file bytes stamp := Option.some.inj (Option.ite_none_left_eq_some.mp hn).right
    cases ht : t.find (.ofText file) <;> rw [ht] at hf <;> cases hf
    rw [isFile, ht, he]

-- A start leaves the view of a file as it is.
theorem viewOf_start [Libraries] (h : t.isFile (.ofText file)) (settings : Settings) :
    viewOf (start { desk := { tree := t } } settings).session.tree file f = viewOf t file f := by
  have hk := (OpensLog.start settings t).keepsBut
  have hs := sourceText_eq_of_keepsBut hk h fun _ => List.not_mem_nil
  rw [viewOf, viewOf, Preview.output, Preview.output]
  dsimp only
  rw [Session.tree, hs]

section Previewing

variable {args : List Text} {r : PreviewRequest}

theorem run_of_previewed [Libraries] (hr : Request.read? t args = some (.preview r))
    (hs : start { desk := { tree := t } } { path := .ofText r.settings, environment := r.environment, scope } =
      .ready s loaded) (edits : List (List Edit)) :
    run args scope t edits = (preview r loaded s).finish edits := by
  rw [run, begin, hr]
  dsimp only
  rw [hs]

theorem run_of_not_previewed [Libraries] {ending : Ending} (hr : Request.read? t args = some (.preview r))
    (hs : start { desk := { tree := t } } { path := .ofText r.settings, environment := r.environment, scope } =
      .ended s ending) (edits : List (List Edit)) :
    run args scope t edits = { session := s, ending } := by
  rw [run, begin, hr]
  dsimp only
  rw [hs]
  rfl

end Previewing

theorem run_previewWords_shows [Libraries] (hl : Libraries.ReadsOptions) (hf : t.isFileNamed file) (c : Choice)
    (f : Format) (scope : Settings.Variables) (edits : List (List Edit)) :
    (run (c.previewWords file f) scope t edits).Shows (shown t (c.unloaded scope) file f) := by
  have hp := printed_start { desk := { tree := t } } (c.unloaded scope)
  have hv := viewOf_start (f := f) (isFile_of_isFileNamed hf) (c.unloaded scope)
  have hr := Choice.read?_previewWords hl c f hf
  rw [shown]
  cases hs : start { desk := { tree := t } } (c.unloaded scope) <;> rw [hs] at hp hv
  case ended s ending =>
    rw [run_of_not_previewed hr hs]
    exact ⟨hp, code_of_start_eq_ended hs⟩
  case ready s loaded =>
    obtain ⟨s', ending, he, h⟩ := preview_shows (r := c.previewing file f) (s := s) rfl hp
    rw [run_of_previewed hr hs, he, ← hv]
    exact h

-- The output directory is a text, if the settings can be loaded.
def NamesOutput [Libraries] (settings : Settings) (t : Tree) : Prop :=
  (settings.load t).failure = none →
    ∃ out, (settings.load t).settings.get "output.directory".toList (.text "features".toList) = .text out

theorem jobOf_converting [Libraries] {out : Text}
    (h : loaded.get "output.directory".toList (.text "features".toList) = .text out) :
    jobOf (c.converting file f) loaded s = .ok ⟨.ofText file, .ofText out, f, true⟩ := by
  have ho : outOf (loaded.get "output.directory".toList (.text "features".toList)) = .ok (.ofText out) := by
    rw [h]
    rfl
  simp only [jobOf, Choice.converting, ho]
  rfl

theorem run_convertWords_shows [Libraries] (hr : Libraries.ReadsOptions) (hf : t.isFileNamed file) (c : Choice)
    (f : Format) (scope : Settings.Variables) (ho : NamesOutput (c.unloaded scope) t)
    (hl : ¬(start { desk := { tree := t } } (c.unloaded scope)).session.LogsInto (.ofText file))
    (edits : List (List Edit)) :
    (run (c.convertWords file f) scope t edits).Shows (shown t (c.unloaded scope) file f) := by
  have hp := printed_start { desk := { tree := t } } (c.unloaded scope)
  have hv := viewOf_start (f := f) (isFile_of_isFileNamed hf) (c.unloaded scope)
  have hk := (OpensLog.start (c.unloaded scope) t).keepsBut
  have hr := Choice.read?_convertWords hr c f hf
  rw [shown]
  cases hs : start { desk := { tree := t } } (c.unloaded scope) <;> rw [hs] at hp hv hk hl
  case ended s ending =>
    rw [run_of_failed hr hs]
    exact ⟨hp, code_of_start_eq_ended hs⟩
  case ready s loaded =>
    obtain ⟨hn, he⟩ := eq_load_of_start_eq_ready hs
    obtain ⟨out, ho⟩ := ho hn
    rw [← he] at ho
    let job : Job := ⟨.ofText file, .ofText out, f, true⟩
    have hj : jobOf (c.converting file f) loaded s = .ok job := jobOf_converting ho
    have hi : s.tree.isFile job.root := by
      obtain ⟨bytes, hb⟩ := isFile_iff.mp (isFile_of_isFileNamed hf)
      exact isFile_iff.mpr ⟨bytes, hk.readBytes List.not_mem_nil hb⟩
    have hf : sourcesOf s.tree job.root (patternValue loaded) = .ok [job.root] := by
      rw [sourcesOf, if_pos hi]
      rfl
    rw [run_of_started hr hs, convert_eq_run hj hf (List.cons_ne_nil _ _), ← hv]
    exact Job.run_shows rfl rfl hp hi hl

-- Printed and previewed, a file is shown alike, and not at all where it cannot be read or the command does not
-- start; unless the log of the conversion goes on in the file.
theorem run_shows_alike [Libraries] (hr : Libraries.ReadsOptions) (hf : t.isFileNamed file) (c : Choice)
    (f : Format) (scope : Settings.Variables) (ho : NamesOutput (c.unloaded scope) t)
    (hl : ¬(start { desk := { tree := t } } (c.unloaded scope)).session.LogsInto (.ofText file))
    (edits : List (List Edit)) :
    (run (c.convertWords file f) scope t edits).Shows (shown t (c.unloaded scope) file f) ∧
      (run (c.previewWords file f) scope t edits).Shows (shown t (c.unloaded scope) file f) :=
  ⟨run_convertWords_shows hr hf c f scope ho hl edits, run_previewWords_shows hr hf c f scope edits⟩

end Runs

section

open Unreadable Standard

-- A file next to the tests that has a dash in front, with a log that is another file.
def Unreadable.dashed : Tree where
  entries := (["-a.ts".toList], .file (suite "A") (.fresh 0)) ::
    (project "logging: \x7bfile: tests/log\x7d" [("log", [])]).entries

theorem run_shows_alike_dashed :
    Libraries.ReadsOptions ∧ dashed.isFileNamed "-a.ts".toList ∧ NamesOutput (Choice.unloaded {} []) dashed ∧
      ¬(start { desk := { tree := dashed } } (Choice.unloaded {} [])).session.LogsInto (.ofText "-a.ts".toList) ∧
      (run (Choice.convertWords {} "-a.ts".toList .gherkin) [] dashed []).Shows (some "Feature: A".toList) ∧
      (run (Choice.previewWords {} "-a.ts".toList .gherkin) [] dashed []).Shows (some "Feature: A".toList) := by
  have hf : dashed.isFileNamed "-a.ts".toList := by decide +kernel
  have ho : NamesOutput (Choice.unloaded {} []) dashed := fun _ => ⟨"features".toList, by decide +kernel⟩
  have hl : ¬(start { desk := { tree := dashed } } (Choice.unloaded {} [])).session.LogsInto (.ofText "-a.ts".toList) :=
    fun h => absurd h.file (by decide +kernel)
  have hv : shown dashed (Choice.unloaded {} []) "-a.ts".toList .gherkin = some "Feature: A".toList := by
    decide +kernel
  have h := run_shows_alike readsOptions hf {} .gherkin [] ho hl []
  rw [hv] at h
  exact ⟨readsOptions, hf, ho, hl, h⟩

theorem Outcome.Shows.code_le [Libraries] {o : Outcome} (h : o.Shows view) : o.ending.code ≤ 1 := by
  cases view
  case none   => exact h.right.le
  case some _ => exact h.right.le.trans (Nat.zero_le 1)

theorem Outcome.Shows.printed_eq [Libraries] {o o' : Outcome} (h : o.Shows view) (h' : o'.Shows view) :
    o.session.printed = o'.session.printed := by
  cases view <;> exact h.left.trans h'.left.symm

-- A file that is not shown alike where its name comes first, though there are settings that say where to write.
structure ShownApart [Libraries] (t : Tree) (file : Text) (f : Format) : Prop where
  exists_file : t.isFileNamed file
  loads : ((Choice.unloaded {} []).load t).failure = none
  output : NamesOutput (Choice.unloaded {} []) t
  apart : ∀ view, ¬((run ("convert".toList :: file :: Choice.convertOptions {} f) [] t []).Shows view ∧
    (run ("preview".toList :: file :: Choice.previewOptions {} f) [] t []).Shows view)

-- The log goes on in the last line of a script, which closes the suite.
def Unreadable.closing : Tree :=
  project "logging: \x7bfile: tests/a.spec.ts\x7d" [("a.spec.ts", Utf8.encode (Text.unlines [
    "test.describe('A', () => \x7b".toList, "test('b', () => \x7b".toList, "\x7d);".toList, "\x7d);".toList]))]

theorem shownApart_dashed_closing :
    ShownApart dashed "-a.ts".toList .gherkin ∧ ShownApart closing "tests/a.spec.ts".toList .gherkin := by
  refine ⟨⟨by decide +kernel, by decide +kernel, fun _ => ⟨"features".toList, by decide +kernel⟩, ?option⟩,
    ⟨by decide +kernel, by decide +kernel, fun _ => ⟨"features".toList, by decide +kernel⟩, ?log⟩⟩
  case option =>
    intro view h
    exact absurd h.left.code_le (by decide +kernel)
  case log =>
    intro view h
    have hc : (run ("convert".toList :: "tests/a.spec.ts".toList :: Choice.convertOptions {} .gherkin)
        [] closing []).session.printed = "Feature: A\n".toList := by decide +kernel
    have hp : (run ("preview".toList :: "tests/a.spec.ts".toList :: Choice.previewOptions {} .gherkin)
        [] closing []).session.printed = "Feature: A\n\n  Scenario: b\n".toList := by decide +kernel
    have he := h.left.printed_eq h.right
    rw [hc, hp] at he
    exact absurd he (by decide)

end

end GherkinView.CommandLine
