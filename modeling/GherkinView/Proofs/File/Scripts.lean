import Mathlib.Data.List.Induction
import Mathlib.Tactic.Tauto
import GherkinView.Proofs.File.Found

namespace GherkinView.File

-- Patterns

section Glyphs

variable {p : Text → Bool} {s t ending : Text}

theorem anyTail_iff : anyTail p t ↔ ∃ s, s <:+ t ∧ p s := by
  induction t
  case nil => simp [anyTail]
  case cons c r hi => simp [anyTail, hi, List.suffix_cons_iff, or_and_right, exists_or]

theorem matchName_literals : matchName (s.map .literal) t ↔ t = s := by
  induction s generalizing t
  case nil => cases t <;> simp [matchName]
  case cons c s hi =>
    cases t
    case nil => simp [matchName]
    case cons d r =>
      rw [List.map_cons, matchName, Bool.and_eq_true, Glyph.fits, beq_iff_eq, hi, List.cons.injEq, @eq_comm _ c]
      nofun

-- A star stands for whatever is in front of an ending.
theorem matchName_star_literals : matchName (.star :: ending.map .literal) t ↔ ending <:+ t := by
  rw [matchName, anyTail_iff]
  simp [matchName_literals]

end Glyphs

-- What the names of test scripts end in.
def scriptEndings : List Text :=
  [".spec.ts".toList, ".spec.js".toList, ".test.ts".toList, ".test.js".toList]

def anyDepthEnding (ending : Text) : List Segment :=
  [.anyDepth, .wild (.star :: ending.map .literal)]

theorem defaultPatterns_eq : defaultPatterns = scriptEndings.map ("**/*".toList ++ ·) :=
  rfl

theorem parsePattern_ending : ∀ ending ∈ scriptEndings,
    parsePattern ("**/*".toList ++ ending) = .ok (anyDepthEnding ending) := by
  decide +kernel

namespace Tree

variable {t : Tree} {l k : Location} {e : Entry} {p q root : Path} {name : Text} {parts below : List Text}
variable {bytes : List UInt8}

-- What is in a directory

theorem mem_directoriesBelow : below ∈ t.directoriesBelow l ↔
    below ≠ [] ∧ ∃ s, (l ++ below, .directory s) ∈ t.entries := by
  rw [directoriesBelow, List.mem_filterMap]
  constructor
  case mp =>
    rintro ⟨⟨k, e⟩, hm, h⟩
    dsimp only at h
    split at h
    case h_2 => contradiction
    case h_1 s c r hk =>
      cases h
      rw [List.isPrefixOf?_eq_some_iff_append_eq] at hk
      exact ⟨List.cons_ne_nil c r, s, hk ▸ hm⟩
  case mpr =>
    rintro ⟨hn, s, hm⟩
    obtain ⟨c, r, rfl⟩ := List.exists_cons_of_ne_nil hn
    have hk : l.isPrefixOf? (l ++ c :: r) = some (c :: r) :=
      List.isPrefixOf?_eq_some_iff_append_eq.mpr rfl
    exact ⟨_, hm, by dsimp only; rw [hk]⟩

theorem entry?_eq_of_mem (hw : t.IsWellFormed) (hk : k ≠ []) : (k, e) ∈ t.entries ↔ t.entry? k = some e := by
  rw [entry?_of_ne_nil hk]
  constructor
  case mp => exact hw.lookup
  case mpr =>
    intro h
    obtain ⟨before, after, he, _⟩ := List.lookup_eq_some_iff.mp h
    exact he ▸ List.mem_append_right _ List.mem_cons_self

-- What stands below something stands in a directory, and so on up to there.
theorem IsWellFormed.directory_of_below (hw : t.IsWellFormed) (hn : parts ≠ [])
    (hc : t.content? (l ++ parts) ≠ none) : t.content? l = some none := by
  induction parts using List.reverseRecOn
  case nil => contradiction
  case append_singleton above part hi =>
    have hk : l ++ (above ++ [part]) ≠ [] := by simp
    obtain ⟨e, he⟩ := Option.ne_none_iff_exists'.mp (mt Option.map_eq_none_iff.mpr hc)
    have hd := hw.directory _ ((entry?_eq_of_mem hw hk).mpr he)
    rw [← List.append_assoc, List.dropLast_concat] at hd
    by_cases ha : above = []
    case pos => rwa [ha, List.append_nil] at hd
    case neg => exact hi ha (by simp [hd])

theorem IsWellFormed.straight_of_content? (hw : t.IsWellFormed) (hc : t.content? k ≠ none) : Straight k := by
  by_cases hk : k = []
  case pos => rw [hk]; exact .nil
  case neg =>
    obtain ⟨e, he⟩ := Option.ne_none_iff_exists'.mp (mt Option.map_eq_none_iff.mpr hc)
    exact hw.straight.entry _ ((entry?_eq_of_mem hw hk).mpr he)

theorem follow_append {more : List Text} (h : t.follow k parts = .ok l) :
    t.follow k (parts ++ more) = t.follow l more := by
  induction parts generalizing k
  case nil => cases h; rfl
  case cons part parts hi =>
    rw [List.cons_append, follow]
    rw [follow] at h
    split at h
    case h_1 => contradiction
    case h_2 => contradiction
    case h_3 => exact hi h

end Tree

-- The path that goes on from `root` by `parts`.
def Path.descend (root : Path) (parts : List Text) : Path :=
  { root with parts := root.parts ++ parts }

namespace Tree

variable {t : Tree} {l k : Location} {e : Entry} {p q root : Path} {name : Text} {parts below : List Text}
variable {bytes : List UInt8}

-- Whatever is below the directory at a path is found by going on from that path.
theorem IsWellFormed.locate_descend (hw : t.IsWellFormed) (hl : t.locate root = .ok l)
    (hc : t.content? (l ++ parts) ≠ none) : t.locate (root.descend parts) = .ok (l ++ parts) := by
  rw [locate, Path.descend]
  dsimp only [Path.isAbsolute]
  refine (follow_append hl).trans ?_
  induction parts using List.reverseRecOn
  case nil => rw [List.append_nil]; rfl
  case append_singleton above part hi =>
    have hd : t.content? (l ++ above) = some none :=
      hw.directory_of_below (List.cons_ne_nil part []) (by rwa [List.append_assoc])
    have hp : part ≠ ['.', '.'] := by
      rintro rfl
      exact hw.straight_of_content? hc (by simp)
    obtain ⟨s, he⟩ := entry?_of_content?_directory hd
    rw [follow_append (hi (by simp [hd])), follow, he]
    dsimp only
    rw [follow, step_eq_advance hw.links, advance, if_neg hp, List.append_assoc]

theorem isFile_descend (hw : t.IsWellFormed) (hl : t.locate root = .ok l)
    (hc : t.content? (l ++ parts) ≠ none) :
    t.isFile (root.descend parts) ↔ ∃ bytes, t.content? (l ++ parts) = some (some bytes) := by
  have hp := hw.locate_descend hl hc
  rw [isFile_iff_content?, ← locate_eq hp]
  simp [hp]

-- Patterns that name an ending

theorem mem_directoriesFrom (hw : t.IsWellFormed) (hl : t.locate root = .ok l)
    (hd : t.content? l = some none) : q ∈ t.directoriesFrom root ↔
      ∃ parts, q = root.descend parts ∧ t.content? (l ++ parts) = some none := by
  rw [directoriesFrom, hl, List.mem_cons, List.mem_map]
  constructor
  case mp =>
    rintro (rfl | ⟨below, hb, rfl⟩)
    case inl => exact ⟨[], by simp [Path.descend], by rwa [List.append_nil]⟩
    case inr =>
      obtain ⟨hn, s, hm⟩ := mem_directoriesBelow.mp hb
      exact ⟨below, rfl, content?_eq ((entry?_eq_of_mem hw (by simp [hn])).mp hm)⟩
  case mpr =>
    rintro ⟨parts, rfl, hc⟩
    by_cases hn : parts = []
    case pos => exact .inl (by simp [hn, Path.descend])
    case neg =>
      obtain ⟨s, he⟩ := entry?_of_content?_directory hc
      exact .inr ⟨parts, mem_directoriesBelow.mpr ⟨hn, s, (entry?_eq_of_mem hw (by simp [hn])).mpr he⟩, rfl⟩

-- The files below the directory, in whatever depth, of which the name has the ending.
theorem mem_glob_anyDepthEnding {ending : Text} (hw : t.IsWellFormed) (hl : t.locate root = .ok l)
    (hd : t.content? l = some none) :
    p ∈ (t.glob root (anyDepthEnding ending)).filter t.isFile ↔
      ∃ above name, p = root.descend (above ++ [name]) ∧
        (∃ bytes, t.content? (l ++ (above ++ [name])) = some (some bytes)) ∧ ending <:+ name := by
  have hg {name : Text} : t.glob p [] = [p] := rfl
  simp only [anyDepthEnding, glob, List.mem_filter, List.mem_flatMap, mem_directoriesFrom hw hl hd,
    List.isEmpty_nil, Bool.true_or, Bool.and_true, List.mem_singleton, matchName_star_literals, Prod.exists]
  constructor
  case mp =>
    rintro ⟨⟨_, ⟨above, rfl, hc⟩, name, e, ⟨hm, hs⟩, rfl⟩, hf⟩
    rw [childrenAt, hw.locate_descend hl (by simp [hc])] at hm
    have he := (entry?_eq_of_mem hw (by simp)).mp ((mem_children hw.links).mp hm)
    have hp : (root.descend above).child name = root.descend (above ++ [name]) := by
      simp [Path.descend, Path.child]
    rw [hp] at hf ⊢
    rw [List.append_assoc] at he
    exact ⟨above, name, rfl, (isFile_descend hw hl (by simp [content?_eq he])).mp hf, hs⟩
  case mpr =>
    rintro ⟨above, name, rfl, ⟨bytes, hc⟩, hs⟩
    have hd : t.content? (l ++ above) = some none :=
      hw.directory_of_below (List.cons_ne_nil name []) (by simp [hc])
    obtain ⟨s, he⟩ := entry?_of_content?_file hc
    refine ⟨⟨_, ⟨above, rfl, hd⟩, name, .file bytes s, ⟨?_, hs⟩, ?_⟩, ?_⟩
    case refine_1 =>
      rw [childrenAt, hw.locate_descend hl (by simp [hd])]
      exact (mem_children hw.links).mpr ((entry?_eq_of_mem hw (by simp)).mpr (by simpa using he))
    case refine_2 => simp [Path.descend, Path.child]
    case refine_3 => exact (isFile_descend hw hl (by simp [hc])).mpr ⟨bytes, hc⟩

-- Lists of patterns

-- The files that a pattern leads to; none, if it is not well formed.
def filesOf (t : Tree) (root : Path) (pattern : Text) : List Path :=
  (t.filesMatching root pattern).toOption.getD []

def IsPattern (pattern : Text) : Prop :=
  ∃ segments, parsePattern pattern = .ok segments

variable {patterns patterns' : List Text} {pattern : Text} {segments : List Segment}

theorem filesMatching_eq_ok (h : IsPattern pattern) (t : Tree) (root : Path) :
    t.filesMatching root pattern = .ok (t.filesOf root pattern) := by
  obtain ⟨segments, h⟩ := h
  rw [filesOf, filesMatching, h]
  rfl

theorem scriptsUnder_eq_ok (h : ∀ x ∈ patterns, IsPattern x) (hr : ¬t.isFile root) :
    t.scriptsUnder root patterns = .ok (sortedOnce (patterns.flatMap (t.filesOf root))) := by
  have hm : patterns.mapM (t.filesMatching root) = .ok (patterns.map (t.filesOf root)) :=
    mapM_eq_ok fun x hx => filesMatching_eq_ok (h x hx) t root
  rw [scriptsUnder, if_neg hr, hm, List.flatMap_def]
  rfl

theorem root_eq_of_mem_filesOf (h : p ∈ t.filesOf root pattern) : p.root = root.root := by
  rw [filesOf] at h
  cases hf : t.filesMatching root pattern <;> rw [hf] at h
  case error => contradiction
  case ok => exact (extends_of_filesMatching hf h).root_eq

theorem root_eq_of_mem_flatMap (h : p ∈ patterns.flatMap (t.filesOf root)) : p.root = root.root :=
  have ⟨_, _, hp⟩ := List.mem_flatMap.mp h
  root_eq_of_mem_filesOf hp

theorem parts_lt_of_sortKey_lt (hr : p.root = q.root) (h : p.sortKey < q.sortKey) : p.parts < q.parts := by
  rw [Path.sortKey, Path.sortKey, Path.isAbsolute, Path.isAbsolute, hr] at h
  split at h
  case isFalse => exact h
  case isTrue => simpa [List.cons_lt_cons_iff] using h

-- Paths with the same root are listed strictly in the order of their components.
theorem pairwise_parts_sortedOnce {ps : List Path} {slashes : Text} (hr : ∀ p ∈ ps, p.root = slashes) :
    (sortedOnce ps).Pairwise (·.parts < ·.parts) := by
  refine ((pairwise_sortedOnce ps).and (nodup_sortedOnce ps)).imp_of_mem fun {p q} hp hq h => ?_
  have he : p.root = q.root := (hr p (mem_sortedOnce.mp hp)).trans (hr q (mem_sortedOnce.mp hq)).symm
  exact parts_lt_of_sortKey_lt he (lt_of_le_of_ne h.left fun hk => h.right (Path.eq_of_sortKey_eq he hk))

theorem isPattern_of_mem_default (h : pattern ∈ defaultPatterns) : IsPattern pattern := by
  rw [defaultPatterns_eq] at h
  obtain ⟨ending, he, rfl⟩ := List.mem_map.mp h
  exact ⟨_, parsePattern_ending ending he⟩

-- A file below the directory at `root`, at any depth, with one of the endings.
def IsScriptBelow (t : Tree) (root p : Path) : Prop :=
  ∃ above name, p = root.descend (above ++ [name]) ∧
    (∃ bytes, t.content? (t.locationOf root ++ (above ++ [name])) = some (some bytes)) ∧
    ∃ ending ∈ scriptEndings, ending <:+ name

theorem mem_filesOf (hr : t.isDirectory root) (hp : parsePattern pattern = .ok segments) :
    p ∈ t.filesOf root pattern ↔ p ∈ (t.glob root segments).filter t.isFile := by
  rw [filesOf, filesMatching, hp]
  dsimp only [Except.toOption, Option.getD_some]
  rw [if_pos hr]

theorem mem_flatMap_default (hw : t.IsWellFormed) (hr : t.isDirectory root) :
    p ∈ defaultPatterns.flatMap (t.filesOf root) ↔ t.IsScriptBelow root p := by
  obtain ⟨l, hl, hd⟩ := isDirectory_iff.mp hr
  have hf : ∀ ending ∈ scriptEndings, p ∈ t.filesOf root ("**/*".toList ++ ending) ↔
      ∃ above name, p = root.descend (above ++ [name]) ∧
        (∃ bytes, t.content? (l ++ (above ++ [name])) = some (some bytes)) ∧ ending <:+ name := by
    intro ending he
    rw [mem_filesOf hr (parsePattern_ending ending he), mem_glob_anyDepthEnding hw hl hd]
  rw [defaultPatterns_eq, List.flatMap_map, List.mem_flatMap, IsScriptBelow, ← locate_eq hl]
  constructor
  case mp =>
    rintro ⟨ending, he, hp⟩
    obtain ⟨above, name, hp, hb, hs⟩ := (hf ending he).mp hp
    exact ⟨above, name, hp, hb, ending, he, hs⟩
  case mpr =>
    rintro ⟨above, name, hp, hb, ending, he, hs⟩
    exact ⟨ending, he, (hf ending he).mpr ⟨above, name, hp, hb, hs⟩⟩

theorem scriptsUnder_exact (t : Tree) (root : Path) :
    (t.IsWellFormed → t.isDirectory root → ∃ found, t.scriptsUnder root defaultPatterns = .ok found ∧
      (∀ p, p ∈ found ↔ t.IsScriptBelow root p) ∧ found.Pairwise (·.parts < ·.parts)) ∧
    ∀ patterns patterns', (∀ x ∈ patterns, IsPattern x) → (∀ x, x ∈ patterns ↔ x ∈ patterns') →
      ∃ found, t.scriptsUnder root patterns = .ok found ∧ t.scriptsUnder root patterns' = .ok found := by
  constructor
  case left =>
    intro hw hr
    have hn : ¬t.isFile root := not_isFile_of_isDirectory hr
    refine ⟨_, scriptsUnder_eq_ok (fun x => isPattern_of_mem_default) hn, fun p => ?_,
      pairwise_parts_sortedOnce fun p => root_eq_of_mem_flatMap⟩
    rw [mem_sortedOnce, mem_flatMap_default hw hr]
  case right =>
    intro patterns patterns' hv hm
    by_cases hr : t.isFile root
    case pos => exact ⟨[root], by rw [scriptsUnder, if_pos hr]; rfl, by rw [scriptsUnder, if_pos hr]; rfl⟩
    case neg =>
      have hv' : ∀ x ∈ patterns', IsPattern x := fun x hx => hv x ((hm x).mpr hx)
      have hs : sortedOnce (patterns.flatMap (t.filesOf root)) =
          sortedOnce (patterns'.flatMap (t.filesOf root)) := by
        refine eq_sortedOnce (fun p => root_eq_of_mem_flatMap) (nodup_sortedOnce _) (pairwise_sortedOnce _)
          fun p => ?_
        simp only [mem_sortedOnce, List.mem_flatMap, hm]
      exact ⟨_, scriptsUnder_eq_ok hv hr, by rw [scriptsUnder_eq_ok hv' hr, hs]⟩

-- A directory has the name of a script, and a script the name that is its ending.
def nested : Tree where
  entries := [
    (["tests".toList], .directory (.fresh 0)),
    (["tests".toList, "x.test.ts".toList], .directory (.fresh 0)),
    (["tests".toList, "x.test.ts".toList, ".test.js".toList], .file [] (.fresh 0)),
    (["tests".toList, "b.spec.ts".toList], .file [] (.fresh 0))]

theorem scriptsUnder_exact_nested :
    let root : Path := .ofText "tests".toList
    let all := ["*".toList, "**/*.js".toList, "*".toList]
    let rest := ["**/*.js".toList, "*".toList]
    nested.IsWellFormed ∧ nested.isDirectory root ∧
      (∃ found, nested.scriptsUnder root defaultPatterns = .ok found ∧
        root.descend ["x.test.ts".toList, ".test.js".toList] ∈ found ∧ found.Pairwise (·.parts < ·.parts)) ∧
      (∀ x ∈ all, IsPattern x) ∧ (∀ x, x ∈ all ↔ x ∈ rest) ∧
      ∃ found, nested.scriptsUnder root all = .ok found ∧ nested.scriptsUnder root rest = .ok found := by
  intro root all rest
  have hw : nested.IsWellFormed :=
    ⟨rfl, by decide +kernel, by decide +kernel, ⟨by decide +kernel, nofun⟩, by decide +kernel⟩
  have hr : nested.isDirectory root := by decide +kernel
  have hv : ∀ x ∈ all, IsPattern x := by
    have hs : IsPattern "*".toList := ⟨[.wild [.star]], by decide +kernel⟩
    have hd : IsPattern "**/*.js".toList := ⟨anyDepthEnding ".js".toList, by decide +kernel⟩
    exact List.forall_mem_cons.mpr ⟨hs, List.forall_mem_cons.mpr ⟨hd, List.forall_mem_singleton.mpr hs⟩⟩
  have hm : ∀ x, x ∈ all ↔ x ∈ rest := by
    intro x
    simp only [all, rest, List.mem_cons, List.not_mem_nil, or_false]
    tauto
  obtain ⟨found, hf, hp, hs⟩ := (scriptsUnder_exact nested root).left hw hr
  refine ⟨hw, hr, ⟨found, hf, (hp _).mpr ?_, hs⟩, hv, hm, (scriptsUnder_exact nested root).right all rest hv hm⟩
  exact ⟨["x.test.ts".toList], ".test.js".toList, rfl, ⟨[], by decide +kernel⟩, ".test.js".toList,
    by decide +kernel, List.suffix_refl _⟩

end Tree
end GherkinView.File
