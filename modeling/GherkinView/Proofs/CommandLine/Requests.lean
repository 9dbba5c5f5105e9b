import GherkinView.CommandLine.Run
import GherkinView.Proofs.Libraries

namespace GherkinView.CommandLine

variable {kinds : List OptionKind} {k : OptionKind} {ws : List Text} {file : Text}

section

variable [Libraries] {words words' : List Text} {given given' : List Given}

-- The words are read as these options, whatever comes behind.
def ReadAs (kinds : List OptionKind) (words : List Text) (given : List Given) : Prop :=
  ∀ (rest : List Text) (o : Words), Libraries.readWords? kinds true rest = some o →
    Libraries.readWords? kinds true (words ++ rest) = some (o.add given)

namespace ReadAs

theorem nil (kinds : List OptionKind) : ReadAs kinds [] [] :=
  fun _ _ => id

theorem append (h : ReadAs kinds words given) (h' : ReadAs kinds words' given') :
    ReadAs kinds (words ++ words') (given ++ given') := by
  intro rest o hr
  rw [List.append_assoc, h _ _ (h' _ _ hr), Words.add, Words.add, Words.add, List.append_assoc]

theorem flag (hl : Libraries.ReadsOptions) (hd : AreDistinct kinds) (hk : k ∈ kinds) (hv : k.takesValue = false) :
    ReadAs kinds [k.word] [⟨k.name, []⟩] :=
  fun _ _ => hl.flag hd hk hv

theorem valued (hl : Libraries.ReadsOptions) (hd : AreDistinct kinds) (hk : k ∈ kinds) (hv : k.takesValue = true)
    (v : Text) : ReadAs kinds [k.word, v] [⟨k.name, v⟩] :=
  fun _ _ => hl.valued hd hk hv v

end ReadAs

-- Options and a file. Behind two dashes, a name that starts with one is not taken for an option.
def withFile (file : Text) (words : List Text) : List Text :=
  if file.head? = some '-' then words ++ [['-', '-'], file] else file :: words

theorem ReadAs.readWords?_withFile (h : ReadAs kinds words given) (hl : Libraries.ReadsOptions) (file : Text) :
    Libraries.readWords? kinds true (withFile file words) = some { options := given, others := [file] } := by
  rw [withFile]
  split
  case isTrue =>
    rw [h _ _ (hl.closed kinds true [file]), Words.add, List.append_nil]
  case isFalse hd =>
    have hr : Libraries.readWords? kinds true words = some { options := given } := by
      have h := h [] _ (hl.nil kinds true)
      rwa [List.append_nil, Words.add, List.append_nil] at h
    exact hl.other hd hr

end

open File Gherkin

namespace Request

theorem readCommand?_eq [Libraries] {o : Words} {read? : Words → Option Request}
    (hr : Libraries.readWords? kinds true ws = some o)
    (hh : o.has helpName = false) : readCommand? kinds read? ws = read? o := by
  rw [readCommand?, hr]
  dsimp [bind, Option.bind]
  rw [hh]
  rfl

theorem areDistinct_convertKinds : AreDistinct convertKinds :=
  ⟨by decide, by decide⟩

theorem areDistinct_previewKinds : AreDistinct previewKinds :=
  ⟨by decide, by decide⟩

theorem read?_convert [Libraries] (hl : Libraries.ReadsOptions) (t : Tree) (ws : List Text) :
    read? t ("convert".toList :: ws) = readCommand? convertKinds (fun ws => (readConvert? t ws).map convert) ws := by
  rw [read?, hl.command (by decide)]
  rfl

theorem read?_preview [Libraries] (hl : Libraries.ReadsOptions) (t : Tree) (ws : List Text) :
    read? t ("preview".toList :: ws) = readCommand? previewKinds (fun ws => (readPreview? t ws).map preview) ws := by
  rw [read?, hl.command (by decide)]
  rfl

end Request

-- Which settings a command line asks for.
structure Choice where
  environment : Option Text := none
  settings : Option Text := none

namespace Choice

variable {c : Choice} {f : Format} {t : Tree}

def words (c : Choice) : List Text :=
  (c.environment.toList.flatMap fun v => [Request.environmentKind.word, v]) ++
    c.settings.toList.flatMap fun v => [Request.settingsKind.word, v]

def given (c : Choice) : List Given :=
  c.environment.toList.map (⟨Request.environmentKind.name, ·⟩) ++
    c.settings.toList.map (⟨Request.settingsKind.name, ·⟩)

theorem readAs_words [Libraries] (hl : Libraries.ReadsOptions) (hd : AreDistinct kinds)
    (he : Request.environmentKind ∈ kinds) (hs : Request.settingsKind ∈ kinds) (c : Choice) :
    ReadAs kinds c.words c.given := by
  refine .append ?_ ?_
  case refine_1 =>
    cases c.environment
    case none   => exact .nil kinds
    case some v => exact .valued hl hd he rfl v
  case refine_2 =>
    cases c.settings
    case none   => exact .nil kinds
    case some v => exact .valued hl hd hs rfl v

def convertOptions (c : Choice) (f : Format) : List Text :=
  [Request.printKind.word] ++ [Request.formatKind.word, f.name] ++ c.words

def convertGiven (c : Choice) (f : Format) : List Given :=
  [⟨Request.printKind.name, []⟩] ++ [⟨Request.formatKind.name, f.name⟩] ++ c.given

def previewOptions (c : Choice) (f : Format) : List Text :=
  [Request.formatKind.word, f.name] ++ c.words

def previewGiven (c : Choice) (f : Format) : List Given :=
  [⟨Request.formatKind.name, f.name⟩] ++ c.given

-- Words that ask for a file to be converted and printed in a format.
def convertWords (c : Choice) (file : Text) (f : Format) : List Text :=
  "convert".toList :: withFile file (c.convertOptions f)

-- Words that ask for it to be shown in the format.
def previewWords (c : Choice) (file : Text) (f : Format) : List Text :=
  "preview".toList :: withFile file (c.previewOptions f)

def converting (c : Choice) (file : Text) (f : Format) : ConvertRequest where
  path := file
  out := none
  format := some f
  print := true
  environment := c.environment
  settings := c.settings.getD Request.defaultSettings

def previewing (c : Choice) (file : Text) (f : Format) : PreviewRequest where
  path := file
  watch := false
  interval := none
  format := f
  environment := c.environment
  settings := c.settings.getD Request.defaultSettings

theorem not_has_given (c : Choice) (others : List Text) :
    Words.has ⟨c.given, others⟩ Request.helpName = false := by
  obtain ⟨environment, settings⟩ := c
  cases environment <;> cases settings <;> rfl

theorem readAs_convertOptions [Libraries] (hl : Libraries.ReadsOptions) (c : Choice) (f : Format) :
    ReadAs Request.convertKinds (c.convertOptions f) (c.convertGiven f) := by
  have hd := Request.areDistinct_convertKinds
  have hp : ReadAs Request.convertKinds [Request.printKind.word] _ := .flag hl hd (by decide) rfl
  have hf : ReadAs Request.convertKinds [Request.formatKind.word, f.name] _ := .valued hl hd (by decide) rfl f.name
  exact .append (.append hp hf) (readAs_words hl hd (by decide) (by decide) c)

theorem readConvert?_given (h : t.isFileNamed file) :
    Request.readConvert? t ⟨c.convertGiven f, [file]⟩ = some (c.converting file f) := by
  obtain ⟨e, he⟩ : ∃ e, t.named? file = some e := by
    rw [Tree.isFileNamed] at h
    cases hn : t.named? file <;> simp [hn] at h ⊢
  obtain ⟨environment, settings⟩ := c
  rw [Request.readConvert?]
  dsimp only
  rw [he]
  cases environment <;> cases settings <;> cases f <;> rfl

theorem read?_convertWords [Libraries] (hl : Libraries.ReadsOptions) (c : Choice) (f : Format)
    (h : t.isFileNamed file) :
    Request.read? t (c.convertWords file f) = some (.convert (c.converting file f)) := by
  have hr := (readAs_convertOptions hl c f).readWords?_withFile hl file
  have hh : Words.has ⟨c.convertGiven f, [file]⟩ Request.helpName = false := c.not_has_given [file]
  rw [convertWords, Request.read?_convert hl, Request.readCommand?_eq hr hh, readConvert?_given h]
  rfl

theorem readAs_previewOptions [Libraries] (hl : Libraries.ReadsOptions) (c : Choice) (f : Format) :
    ReadAs Request.previewKinds (c.previewOptions f) (c.previewGiven f) := by
  have hd := Request.areDistinct_previewKinds
  have hf : ReadAs Request.previewKinds [Request.formatKind.word, f.name] _ := .valued hl hd (by decide) rfl f.name
  exact .append hf (readAs_words hl hd (by decide) (by decide) c)

theorem readPreview?_given (h : t.isFileNamed file) :
    Request.readPreview? t ⟨c.previewGiven f, [file]⟩ = some (c.previewing file f) := by
  obtain ⟨environment, settings⟩ := c
  rw [Request.readPreview?]
  dsimp only
  rw [h]
  cases environment <;> cases settings <;> cases f <;> rfl

theorem read?_previewWords [Libraries] (hl : Libraries.ReadsOptions) (c : Choice) (f : Format)
    (h : t.isFileNamed file) :
    Request.read? t (c.previewWords file f) = some (.preview (c.previewing file f)) := by
  have hr := (readAs_previewOptions hl c f).readWords?_withFile hl file
  have hh : Words.has ⟨c.previewGiven f, [file]⟩ Request.helpName = false := c.not_has_given [file]
  rw [previewWords, Request.read?_preview hl, Request.readCommand?_eq hr hh, readPreview?_given h]
  rfl

end Choice
end GherkinView.CommandLine
