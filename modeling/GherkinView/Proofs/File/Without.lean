import GherkinView.Proofs.File.Lacks

namespace GherkinView.File.Tree

variable {t t₁ : Tree} {l : Location} {p q root : Path} {e : Entry} {gone logs : List Location}

def without (t : Tree) (gone : List Location) : Tree :=
  { t with entries := t.entries.filter (·.1 ∉ gone) }

-- Each location is there once, has proper names, and stands in a directory; the working directory is one.
-- There are no links.
structure IsWellFormed (t : Tree) : Prop where
  links : t.links = []
  home : t.content? t.home = some none
  nodup : (t.entries.map Prod.fst).Nodup
  straight : t.IsStraight
  directory : ∀ entry ∈ t.entries, t.content? entry.1.dropLast = some none

-- There are files at all these locations.
def AreFiles (t : Tree) (ls : List Location) : Prop :=
  ∀ l ∈ ls, ∃ bytes, t.content? l = some (some bytes)

theorem lookup_filter (es : List (Location × Entry)) (gone : List Location) (l : Location) :
    (es.filter (·.1 ∉ gone)).lookup l = if l ∈ gone then none else es.lookup l := by
  induction es
  case nil => split <;> rfl
  case cons entry es hi =>
    have ⟨k, e⟩ := entry
    rw [List.filter_cons, List.lookup_cons]
    by_cases hk : k ∈ gone
    case pos =>
      rw [if_neg (by simpa using hk), hi]
      by_cases hl : l = k
      case pos => rw [if_pos (hl ▸ hk), if_pos (hl ▸ hk)]
      case neg => rw [beq_false_of_ne hl]
    case neg =>
      rw [if_pos (by simpa using hk), List.lookup_cons, hi]
      by_cases hl : l = k
      case pos => simp [hl, hk]
      case neg => rw [beq_false_of_ne hl]

theorem entry?_of_ne_nil (hl : l ≠ []) : t.entry? l = t.entries.lookup l :=
  if_neg hl

theorem content?_without (hg : t.AreFiles gone) (l : Location) :
    (t.without gone).content? l = if l ∈ gone then none else t.content? l := by
  by_cases hl : l = []
  case pos =>
    have hn : l ∉ gone := fun hm => by
      have ⟨_, hc⟩ := hg l hm
      rw [hl, content?_nil] at hc
      cases hc
    rw [if_neg hn, hl, content?_nil, content?_nil]
  case neg =>
    rw [content?, content?, entry?_of_ne_nil hl, entry?_of_ne_nil hl, without, lookup_filter]
    split <;> rfl

theorem lacks_without (hg : t.AreFiles gone) (logs : List Location) :
    Lacks logs gone t t (t.without gone) where
  toSamePaths := ⟨rfl, rfl⟩
  kind? l := by
    rw [kind?, content?_without hg]
    split
    case isTrue hl  => exact .inr ⟨hl, rfl, kind?_eq_file.mpr (hg l hl)⟩
    case isFalse hl => exact .inl rfl
  content? {l} _ := by
    rw [content?_without hg]
    split
    case isTrue hl  => exact .inr ⟨hl, rfl, rfl⟩
    case isFalse hl => exact .inl rfl

theorem isFile_iff_content? :
    t.isFile p ↔ ∃ bytes,
      t.locate p = .ok (t.locationOf p) ∧ t.content? (t.locationOf p) = some (some bytes) := by
  rw [isFile_iff]
  constructor
  case mp =>
    intro ⟨bytes, h⟩
    have ⟨l, hl, hc⟩ := readBytes_eq_ok.mp h
    exact ⟨bytes, locate_eq hl ▸ hl, locate_eq hl ▸ hc⟩
  case mpr =>
    intro ⟨bytes, hl, hc⟩
    exact ⟨bytes, readBytes_eq_ok.mpr ⟨_, hl, hc⟩⟩

theorem isFile_without (hg : t.AreFiles gone) :
    (t.without gone).isFile p ↔ t.isFile p ∧ t.locationOf p ∉ gone := by
  have hl : (t.without gone).locationOf p = t.locationOf p := rfl
  rw [isFile_iff_content?, isFile_iff_content?, hl, content?_without hg, (lacks_without hg []).locate_iff]
  split <;> simp [*]

theorem IsWellFormed.lookup (hw : t.IsWellFormed) (h : (l, e) ∈ t.entries) :
    t.entries.lookup l = some e := by
  have ⟨before, after, he⟩ := List.append_of_mem h
  have hn := he ▸ hw.nodup
  rw [List.map_append, List.nodup_append] at hn
  refine List.lookup_eq_some_iff.mpr ⟨before, after, he, fun entry hm => bne_iff_ne.mpr ?_⟩
  exact (hn.2.2 _ (List.mem_map_of_mem hm) _ List.mem_cons_self).symm

theorem mem_entries_of_directory (hl : l ≠ []) (h : t.content? l = some none) :
    ∃ s, (l, .directory s) ∈ t.entries := by
  have ⟨s, he⟩ := entry?_of_content?_directory h
  rw [entry?_of_ne_nil hl] at he
  have ⟨before, after, he, _⟩ := List.lookup_eq_some_iff.mp he
  exact ⟨s, he ▸ List.mem_append_right _ List.mem_cons_self⟩

theorem IsWellFormed.directory_above (hw : t.IsWellFormed) (h : t.content? l = some none) :
    t.content? l.dropLast = some none := by
  by_cases hl : l = []
  case pos => rw [hl]; rfl
  case neg =>
    have ⟨_, hm⟩ := mem_entries_of_directory hl h
    exact hw.directory _ hm

-- What is gone is no directory.
theorem eq_file_of_mem (hw : t.IsWellFormed) (hg : t.AreFiles gone) (h : (l, e) ∈ t.entries)
    (hl : l ∈ gone) : ∃ bytes s, e = .file bytes s := by
  have ⟨bytes, hc⟩ := hg l hl
  have ⟨s, hf⟩ := entry?_of_content?_file hc
  rw [entry?_of_ne_nil (ne_nil_of_content? (by rw [hc]; nofun)), hw.lookup h] at hf
  exact ⟨bytes, s, Option.some.inj hf⟩

-- A file bears the name of the path that leads to it.
theorem IsWellFormed.getLast?_locationOf (hw : t.IsWellFormed) (h : t.isFile p) :
    (t.locationOf p).getLast? = some p.name := by
  obtain ⟨bytes, hl, hc⟩ := isFile_iff_content?.mp h
  obtain hp | ⟨parts, part, hp⟩ := p.parts.eq_nil_or_concat'
  case inl =>
    rw [locationOf, hp, List.foldl_nil] at hc
    split at hc
    case isTrue  => rw [content?_nil] at hc; cases hc
    case isFalse => rw [hw.home] at hc; cases hc
  case inr =>
    have hn : p.name = part := by rw [Path.name, hp, List.getLast?_concat, Option.getD_some]
    rw [locate, hp] at hl
    obtain ⟨above, ha, he⟩ := step_of_follow_concat hl
    rw [he, step_eq_advance hw.links, advance] at hc ⊢
    split
    case isFalse => rw [hn, List.getLast?_concat]
    case isTrue hd =>
      rw [if_pos hd, hw.directory_above ha] at hc
      cases hc

theorem nameIn?_eq_some_iff {k : Location} {name : Text} : nameIn? l k = some name ↔ k = l ++ [name] := by
  constructor
  case mp =>
    intro h
    obtain ⟨hk, hn⟩ := Option.ite_none_right_eq_some.mp h
    obtain ⟨above, rfl⟩ := List.getLast?_eq_some_iff.mp hn
    rw [← hk, List.dropLast_concat]
  case mpr =>
    rintro rfl
    rw [nameIn?, List.dropLast_concat, if_pos rfl, List.getLast?_concat]

theorem children_of_unlinked (hu : t.links = []) (l : Location) :
    t.children l = t.entries.filterMap fun (k, e) => (nameIn? l k).map (·, e) := by
  rw [children, hu, List.filterMap_nil, List.append_nil]

theorem mem_children (hu : t.links = []) {name : Text} :
    (name, e) ∈ t.children l ↔ (l ++ [name], e) ∈ t.entries := by
  simp [children_of_unlinked hu, nameIn?_eq_some_iff]

theorem children_without (hu : t.links = []) (gone : List Location) (l : Location) :
    (t.without gone).children l = (t.children l).filter fun (name, _) => l ++ [name] ∉ gone := by
  rw [children_of_unlinked hu, children_of_unlinked (t := t.without gone) hu, without, List.filterMap_filter,
    List.filter_filterMap]
  refine List.filterMap_congr fun (k, e) _ => ?_
  cases hk : nameIn? l k
  case none => simp [hk]
  case some name =>
    obtain rfl := nameIn?_eq_some_iff.mp hk
    by_cases hm : l ++ [name] ∈ gone <;> simp [hk, hm, Option.filter]

theorem directoriesBelow_without (hw : t.IsWellFormed) (hg : t.AreFiles gone) (l : Location) :
    (t.without gone).directoriesBelow l = t.directoriesBelow l := by
  rw [directoriesBelow, directoriesBelow, without, List.filterMap_filter]
  refine List.filterMap_congr fun (k, e) he => ?_
  by_cases hk : k ∈ gone
  case neg => simp [hk]
  case pos =>
    obtain ⟨bytes, s, rfl⟩ := eq_file_of_mem hw hg he hk
    simp [hk]

theorem exists_of_isFile (h : t.isFile p) : t.exists? p := by
  rw [isFile] at h
  split at h
  case h_1 hf => rw [exists?, hf]; rfl
  case h_2    => contradiction

theorem flatMap_filter_of_nil {α β} {keep : α → Bool} {f : α → List β} {xs : List α}
    (h : ∀ x ∈ xs, keep x = false → f x = []) : (xs.filter keep).flatMap f = xs.flatMap f := by
  induction xs
  case nil => rfl
  case cons x xs hi =>
    have ⟨hx, hxs⟩ := List.forall_mem_cons.mp h
    rw [List.filter_cons, List.flatMap_cons]
    cases hk : keep x
    case true  => rw [if_pos rfl, List.flatMap_cons, hi hxs]
    case false => rw [if_neg Bool.false_ne_true, hx hk, hi hxs, List.nil_append]

section Glob

variable (hw : t.IsWellFormed) (hg : t.AreFiles gone)
include hg

theorem locate_without (p : Path) : (t.without gone).locate p = .ok l ↔ t.locate p = .ok l :=
  (lacks_without hg []).locate_iff

theorem locate_without_cases (p : Path) :
    (∃ l, t.locate p = .ok l ∧ (t.without gone).locate p = .ok l) ∨
      ∃ c c', t.locate p = .error c ∧ (t.without gone).locate p = .error c' := by
  cases h : t.locate p
  case ok l => exact .inl ⟨l, rfl, (locate_without hg p).mpr h⟩
  case error c =>
    cases h' : (t.without gone).locate p
    case ok l     => cases h.symm.trans ((locate_without hg p).mp h')
    case error c' => exact .inr ⟨c, c', rfl, rfl⟩

theorem childrenAt_without (hu : t.links = []) (p : Path) :
    (t.without gone).childrenAt p =
      (t.childrenAt p).filter fun (name, _) => t.locationOf p ++ [name] ∉ gone := by
  rw [childrenAt, childrenAt]
  obtain ⟨l, h, h'⟩ | ⟨c, c', h, h'⟩ := locate_without_cases hg p
  case inl =>
    rw [h', h, locate_eq h]
    exact children_without hu gone _
  case inr => rw [h', h]; rfl

theorem isDirectory_without (p : Path) : (t.without gone).isDirectory p = t.isDirectory p :=
  (lacks_without hg []).isDirectory_eq

include hw

theorem directoriesFrom_without (p : Path) : (t.without gone).directoriesFrom p = t.directoriesFrom p := by
  rw [directoriesFrom, directoriesFrom]
  obtain ⟨l, h, h'⟩ | ⟨c, c', h, h'⟩ := locate_without_cases hg p
  case inl =>
    rw [h', h]
    dsimp only
    rw [directoriesBelow_without hw hg]
  case inr => rw [h', h]

-- A child that is gone leads on to nothing.
theorem filter_glob_child {name : Text} {segments : List Segment}
    (he : segments = [] ∨ ∃ s, e = .directory s) (h : (name, e) ∈ t.childrenAt p)
    (hm : t.locationOf p ++ [name] ∈ gone) :
    (t.glob (p.child name) segments).filter (t.without gone).isFile = [] := by
  have hn := ne_of_mem_childrenAt hw.straight h
  have hf : ∃ bytes s, e = .file bytes s := by
    rw [childrenAt] at h
    split at h
    case h_2 => contradiction
    case h_1 l hl => exact eq_file_of_mem hw hg ((mem_children hw.links).mp h) (locate_eq hl ▸ hm)
  obtain ⟨bytes, s, rfl⟩ := hf
  obtain rfl := he.resolve_right (by simp)
  have hl : t.locationOf (p.child name) = t.locationOf p ++ [name] := by
    simp [locationOf, step_eq_advance hw.links, Path.child, Path.isAbsolute, advance, hn]
  refine List.filter_eq_nil_iff.mpr fun q hq hq' => ?_
  rw [List.mem_singleton.mp hq] at hq'
  exact ((isFile_without hg).mp hq').right (hl ▸ hm)

-- Induction on the segments: what is gone is only found at their end.
theorem filter_glob_without (p : Path) (segments : List Segment) :
    ((t.without gone).glob p segments).filter (t.without gone).isFile =
      (t.glob p segments).filter (t.without gone).isFile := by
  induction segments generalizing p
  case nil => rfl
  case cons segment rest hi =>
    cases segment
    case here => rfl
    case anyDepth =>
      rw [glob, glob, directoriesFrom_without hw hg, List.filter_flatMap, List.filter_flatMap]
      exact List.flatMap_congr fun q _ => hi q
    case name n =>
      rw [glob, glob]
      cases rest
      case cons =>
        simp only [List.isEmpty_cons, Bool.false_eq_true, if_false, isDirectory_without hg]
        split
        case isTrue  => exact hi _
        case isFalse => rfl
      case nil =>
        simp only [List.isEmpty_nil, if_true, glob]
        cases hf : (t.without gone).isFile (p.child n)
        case true =>
          have hx := exists_of_isFile hf
          have hx' := exists_of_isFile ((isFile_without hg).mp hf).left
          rw [if_pos hx, if_pos hx']
        case false =>
          have hn : [p.child n].filter (t.without gone).isFile = [] := by simp [hf]
          split <;> split <;> simp only [hn, List.filter_nil]
    case wild glyphs =>
      rw [glob, glob, childrenAt_without hg hw.links, List.filter_flatMap, List.filter_flatMap, List.filter_comm]
      simp only [hi]
      refine flatMap_filter_of_nil fun (name, e) hm hk => ?_
      have ⟨hm, hc⟩ := List.mem_filter.mp hm
      refine filter_glob_child hw hg ?_ hm (by simpa using hk)
      cases rest
      case nil  => exact .inl rfl
      case cons =>
        right
        cases e
        case directory => exact ⟨_, rfl⟩
        case file      => simp at hc

end Glob

-- What is put where nothing is gone

theorem lookup_without (t : Tree) (hl : l ∉ gone) :
    (t.without gone).entries.lookup l = t.entries.lookup l := by
  rw [without, lookup_filter, if_neg hl]

theorem entry?_without (t : Tree) (hl : l ∉ gone) : Tree.entry? (t.without gone) l = t.entry? l := by
  unfold entry?
  rw [lookup_without t hl]

theorem put_without (t : Tree) (e : Entry) (hl : l ∉ gone) :
    (t.without gone).put l e = (t.put l e).without gone := by
  rw [put, put, lookup_without t hl]
  split
  case isTrue  =>
    simp only [without, List.filter_map]
    rfl
  case isFalse =>
    have hk : [(l, e)].filter (·.1 ∉ gone) = [(l, e)] := by simp [hl]
    simp only [without, List.filter_append, hk]

theorem touchHolder_without (hg : t.AreFiles gone) (l : Location) (s : Stamp) :
    (t.without gone).touchHolder l s = (t.touchHolder l s).without gone := by
  by_cases hl : l.dropLast ∈ gone
  case neg =>
    rw [touchHolder, touchHolder, lookup_without t hl]
    obtain _ | _ | _ := t.entries.lookup l.dropLast
    case none           => rfl
    case some.directory => exact put_without t _ hl
    case some.file      => rfl
  case pos =>
    obtain ⟨bytes, hc⟩ := hg _ hl
    obtain ⟨_, he⟩ := entry?_of_content?_file hc
    have hn : t.content? l.dropLast ≠ some none := by simp [hc]
    rw [entry?_of_ne_nil (ne_nil_of_content? hn)] at he
    have he' : (t.without gone).entries.lookup l.dropLast = none := by
      rw [without, lookup_filter, if_pos hl]
    rw [touchHolder, touchHolder, he, he']

theorem AreFiles.mono (hs : ∀ l ∈ gone, t₁.content? l = t.content? l) (hg : t.AreFiles gone) :
    t₁.AreFiles gone := by
  intro l hl
  rw [hs l hl]
  exact hg l hl

theorem add_without (hg : t.AreFiles gone) (hl : l ∉ gone) (hn : l ≠ []) (e : Entry) :
    (t.without gone).add l e = (t.add l e).without gone := by
  have hp : (t.put l e).AreFiles gone := by
    refine hg.mono fun k hk => ?_
    rw [(Puts.put hn t e).content?, if_neg fun he : k = l => hl (he ▸ hk)]
  rw [add, add, entry?_without t hl, put_without t e hl]
  split
  case isTrue  => rfl
  case isFalse => exact touchHolder_without hp l _

-- What a path leads to that is not gone.
theorem find_without (hg : t.AreFiles gone) (hl : t.locationOf p ∉ gone) :
    ((t.without gone).find p).toOption = (t.find p).toOption := by
  rw [find, find]
  obtain ⟨l, h, h'⟩ | ⟨c, c', h, h'⟩ := locate_without_cases hg p
  case inl =>
    rw [h', h]
    dsimp only [bind, Except.bind]
    rw [entry?_without t (locate_eq h ▸ hl)]
  case inr => rw [h', h]; rfl

theorem writable_without (hg : t.AreFiles gone) (hl : l ∉ gone) (h : t.writable p = .ok l) :
    (t.without gone).writable p = .ok l := by
  simp only [writable, bind_eq_ok, failAt_eq_ok] at h ⊢
  obtain ⟨k, hk, h⟩ := h
  obtain rfl : k = l := by
    split at h <;> cases h <;> rfl
  refine ⟨k, (lacks_without hg []).site_iff.mpr hk, ?_⟩
  rw [entry?_without t hl]
  split at h
  case h_1 => contradiction
  case h_2 he => rw [he]
  case h_3 he hd =>
    have hm : k.dropLast ∉ gone := fun hm => by
      obtain ⟨_, hc⟩ := hg _ hm
      rw [content?_eq hd] at hc
      cases hc
    rw [he, entry?_without t hm, hd]
  case h_4 => contradiction
  case h_5 => contradiction

theorem openLog_without (hg : t.AreFiles gone) (hl : l ∉ gone) (h : t.openLog p = .ok (t₁, l)) :
    (t.without gone).openLog p = .ok (t₁.without gone, l) := by
  have ⟨k, hw, h⟩ := bind_eq_ok.mp h
  obtain rfl : k = l := by
    split at h <;> cases h <;> rfl
  refine bind_eq_ok.mpr ⟨k, writable_without hg hl hw, ?_⟩
  rw [entry?_without t hl]
  split at h
  case h_1 => cases h; rfl
  case h_2 =>
    cases h
    have hn := ne_nil_of_content? (writable_eq_ok hw).right
    have ha : (t.without gone).add k (.file [] (.fresh (t.without gone).changes)) =
        (t.add k (.file [] (.fresh t.changes))).without gone := add_without hg hl hn _
    rw [ha]
    rfl

end GherkinView.File.Tree
