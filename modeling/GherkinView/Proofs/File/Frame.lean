import GherkinView.File.Tree

namespace GherkinView

theorem bind_eq_ok {ε α β : Type} {x : Except ε α} {f : α → Except ε β} {b : β} :
    (x >>= f) = .ok b ↔ ∃ a, x = .ok a ∧ f a = .ok b := by
  cases x
  case error => exact ⟨nofun, fun ⟨_, h, _⟩ => nomatch h⟩
  case ok a => exact ⟨fun h => ⟨a, rfl, h⟩, fun ⟨_, rfl, h⟩ => h⟩

theorem exists_of_mem_mapM {ε α β : Type} {f : α → Except ε β} {as : List α} {bs : List β} {b : β}
    (h : as.mapM f = .ok bs) (hb : b ∈ bs) : ∃ a ∈ as, f a = .ok b := by
  induction as generalizing bs
  case nil => cases h; contradiction
  case cons a as hi =>
    rw [List.mapM_cons] at h
    have ⟨b', ha, h⟩ := bind_eq_ok.mp h
    have ⟨bs', has, h⟩ := bind_eq_ok.mp h
    cases h
    obtain hb | hb := List.mem_cons.mp hb
    case inl => exact ⟨a, List.mem_cons_self, hb ▸ ha⟩
    case inr =>
      have ⟨a', ha', hf⟩ := hi has hb
      exact ⟨a', List.mem_cons_of_mem _ ha', hf⟩

theorem mapM_eq_ok {ε α β : Type} {f : α → Except ε β} {g : α → β} {as : List α}
    (h : ∀ a ∈ as, f a = .ok (g a)) : as.mapM f = .ok (as.map g) := by
  induction as
  case nil => rfl
  case cons a as hi =>
    obtain ⟨ha, has⟩ := List.forall_mem_cons.mp h
    rw [List.mapM_cons, ha, hi has]
    rfl

end GherkinView

namespace GherkinView.File

-- The bytes of a file; a directory has none.
def Entry.bytes? : Entry → Option (List UInt8)
  | directory _ => none
  | file bytes _ => some bytes

-- The bytes of a file, and when they were written.
def Entry.file? : Entry → Option (List UInt8 × Stamp)
  | directory _ => none
  | file bytes s => some (bytes, s)

namespace Tree

variable {t t' t'' : Tree} {l k : Location} {e : Entry} {p : Path} {bytes : List UInt8}

-- What stands at a location, whenever it was changed.
def content? (t : Tree) (l : Location) : Option (Option (List UInt8)) :=
  (t.entry? l).map Entry.bytes?

-- The file at a location, as it was last written.
def file? (t : Tree) (l : Location) : Option (List UInt8 × Stamp) :=
  ((t.entry? l).map Entry.file?).join

theorem entry?_of_content?_directory (h : t.content? l = some none) :
    ∃ s, t.entry? l = some (.directory s) := by
  have ⟨e, he, hb⟩ := Option.map_eq_some_iff.mp h
  cases e
  case directory s => exact ⟨s, he⟩
  case file        => contradiction

theorem entry?_of_content?_file (h : t.content? l = some (some bytes)) :
    ∃ s, t.entry? l = some (.file bytes s) := by
  have ⟨e, he, hb⟩ := Option.map_eq_some_iff.mp h
  cases e
  case directory => contradiction
  case file s    => cases hb; exact ⟨s, he⟩

theorem content?_eq (h : t.entry? l = some e) : t.content? l = some e.bytes? := by
  rw [content?, h, Option.map_some]

-- Updating the entry at a location is seen there only.
theorem lookup_update (es : List (Location × Entry)) :
    (es.map fun (k, old) => (k, if k = l then e else old)).lookup k =
      (es.lookup k).map fun old => if k = l then e else old := by
  induction es
  case nil => rfl
  case cons p es hi =>
    have ⟨m, old⟩ := p
    rw [List.map_cons, List.lookup_cons, List.lookup_cons, hi]
    cases hm : k == m
    case false => rfl
    case true  => rw [eq_of_beq hm, Option.map_some]

theorem entry?_put (t : Tree) (l : Location) (e : Entry) (hk : k ≠ []) :
    Tree.entry? (t.put l e) k = if k = l then some e else t.entry? k := by
  simp only [if_neg hk, put, entry?]
  split
  case isTrue h =>
    have ⟨old, ho⟩ := Option.isSome_iff_exists.mp h
    rw [lookup_update]
    by_cases hl : k = l
    case pos => simp [hl, ho]
    case neg => simp [hl]
  case isFalse h =>
    rw [Option.not_isSome_iff_eq_none] at h
    rw [List.lookup_append, List.lookup_cons]
    by_cases hl : k = l
    case pos => rw [hl, h, Option.none_or, beq_self_eq_true, if_pos rfl]
    case neg => rw [beq_false_of_ne hl, if_neg hl, List.lookup_nil, Option.or_none]

theorem content?_nil (t : Tree) : t.content? [] = some none :=
  rfl

-- What can be seen of an entry, but for when a directory was changed.
section View

variable {α : Type} (view : Entry → α)

theorem map_entry?_put (t : Tree) (l : Location) (e : Entry) (hk : k ≠ []) :
    (Tree.entry? (t.put l e) k).map view = if k = l then some (view e) else (t.entry? k).map view := by
  rw [entry?_put t l e hk]
  split <;> rfl

variable {view} (hv : ∀ s s', view (.directory s) = view (.directory s'))
include hv

-- A directory stays one when what it holds changes.
theorem map_entry?_touchHolder (t : Tree) (l : Location) (s : Stamp) :
    (Tree.entry? (t.touchHolder l s) k).map view = (t.entry? k).map view := by
  by_cases hk : k = []
  case pos => rw [hk]; rfl
  case neg =>
    rw [touchHolder]
    split
    case h_1 old ho =>
      rw [map_entry?_put view _ _ _ hk]
      split
      case isTrue h =>
        subst h
        have he : t.entry? l.dropLast = some (.directory old) := (if_neg hk).trans ho
        rw [he, Option.map_some, hv s old]
      case isFalse => rfl
    case h_2 => rfl

theorem map_entry?_add (t : Tree) (l : Location) (e : Entry) (hk : k ≠ []) :
    (Tree.entry? (t.add l e) k).map view = if k = l then some (view e) else (t.entry? k).map view := by
  rw [add]
  split
  case isTrue  => exact map_entry?_put view t l e hk
  case isFalse => rw [map_entry?_touchHolder hv, map_entry?_put view t l e hk]

end View

theorem step_eq_advance (hu : t.links = []) : t.step = advance := by
  funext l part
  rw [step, destination, hu]
  rfl

-- Where the path leads as long as there are directories on the way.
def locationOf (t : Tree) (p : Path) : Location :=
  p.parts.foldl t.step (if p.isAbsolute then [] else t.home)

-- Paths start from the same directory and take the same links.
structure SamePaths (t t' : Tree) : Prop where
  home : t'.home = t.home
  links : t'.links = t.links

namespace SamePaths

theorem refl (t : Tree) : SamePaths t t :=
  ⟨rfl, rfl⟩

theorem trans (h : SamePaths t t') (h' : SamePaths t' t'') : SamePaths t t'' :=
  ⟨h'.home.trans h.home, h'.links.trans h.links⟩

theorem symm (h : SamePaths t t') : SamePaths t' t :=
  ⟨h.home.symm, h.links.symm⟩

theorem step_eq (h : SamePaths t t') : t'.step = t.step := by
  funext l part
  rw [step, destination, h.links]
  rfl

theorem locationOf_eq (h : SamePaths t t') (p : Path) : t'.locationOf p = t.locationOf p := by
  rw [locationOf, h.step_eq, h.home, locationOf]

theorem put (t : Tree) (l : Location) (e : Entry) : SamePaths t (t.put l e) := by
  rw [Tree.put]
  split <;> exact ⟨rfl, rfl⟩

theorem touchHolder (t : Tree) (l : Location) (s : Stamp) : SamePaths t (t.touchHolder l s) := by
  rw [Tree.touchHolder]
  split
  case h_1 => exact put _ _ _
  case h_2 => exact refl _

theorem add (t : Tree) (l : Location) (e : Entry) : SamePaths t (t.add l e) := by
  rw [Tree.add]
  split
  case isTrue  => exact put _ _ _
  case isFalse => exact (put t l e).trans (touchHolder _ _ _)

end SamePaths

-- The trees are the same but for what stands at one location.
structure Sets (l : Location) (c : Option (List UInt8)) (t t' : Tree) : Prop extends SamePaths t t' where
  content? (k : Location) : t'.content? k = if k = l then some c else t.content? k

-- So they are if an entry is put there, be it the first one or not.
structure Puts (l : Location) (e : Entry) (t t' : Tree) : Prop extends Sets l e.bytes? t t' where
  file? (k : Location) : t'.file? k = if k = l then e.file? else t.file? k

theorem Puts.of_views (hl : l ≠ []) (hs : SamePaths t t')
    (h : ∀ {α : Type} (view : Entry → α), (∀ s s', view (.directory s) = view (.directory s')) →
      ∀ k ≠ [], (t'.entry? k).map view = if k = l then some (view e) else (t.entry? k).map view) :
    Puts l e t t' where
  toSamePaths := hs
  content? k := by
    by_cases hk : k = []
    case pos => rw [hk, if_neg hl.symm, content?_nil, content?_nil]
    case neg => exact h Entry.bytes? (fun _ _ => rfl) k hk
  file? k := by
    by_cases hk : k = []
    case pos => rw [hk, if_neg hl.symm]; rfl
    case neg =>
      rw [Tree.file?, h Entry.file? (fun _ _ => rfl) k hk]
      split <;> rfl

theorem Puts.put (hl : l ≠ []) (t : Tree) (e : Entry) : Puts l e t (t.put l e) :=
  .of_views hl (.put t l e) fun view _ _ => map_entry?_put view t l e

theorem Puts.add (hl : l ≠ []) (t : Tree) (e : Entry) : Puts l e t (t.add l e) :=
  .of_views hl (.add t l e) fun _ hv _ => map_entry?_add hv t l e

-- How often the tree has changed is not seen.
theorem Puts.counted (h : Puts l e t t') (changes : Nat) : Puts l e t { t' with changes } :=
  ⟨⟨⟨h.home, h.links⟩, h.content?⟩, h.file?⟩

-- Directories are still directories, and the files at all other locations hold what they held.
structure KeepsBut (ls : List Location) (t t' : Tree) : Prop extends SamePaths t t' where
  directory {l : Location} : t.content? l = some none → t'.content? l = some none
  file {l : Location} {bytes : List UInt8} :
    l ∉ ls → t.content? l = some (some bytes) → t'.content? l = some (some bytes)

namespace KeepsBut

variable {ls ls' : List Location}

theorem refl (ls : List Location) (t : Tree) : KeepsBut ls t t :=
  ⟨.refl t, id, fun _ => id⟩

theorem trans (h : KeepsBut ls t t') (h' : KeepsBut ls t' t'') : KeepsBut ls t t'' :=
  ⟨h.toSamePaths.trans h'.toSamePaths, h'.directory ∘ h.directory, fun hl => h'.file hl ∘ h.file hl⟩

theorem mono (hs : ls ⊆ ls') (h : KeepsBut ls t t') : KeepsBut ls' t t' :=
  ⟨h.toSamePaths, h.directory, fun hl => h.file fun hm => hl (hs hm)⟩

theorem follow (h : KeepsBut ls t t') {parts : List Text} (hf : t.follow l parts = .ok k) :
    t'.follow l parts = .ok k := by
  induction parts generalizing l
  case nil => exact hf
  case cons part parts hi =>
    rw [Tree.follow] at hf ⊢
    cases he : t.entry? l
    case none => simp [he] at hf
    case some e =>
      cases e
      case file => simp [he] at hf
      case directory s =>
        have ⟨_, he'⟩ := entry?_of_content?_directory (h.directory (content?_eq he))
        rw [he] at hf
        rw [he', h.step_eq]
        exact hi hf

theorem locate (h : KeepsBut ls t t') (hl : t.locate p = .ok l) : t'.locate p = .ok l := by
  rw [Tree.locate, h.home]
  exact h.follow hl

end KeepsBut

theorem follow_eq {parts : List Text} (h : t.follow l parts = .ok k) : k = parts.foldl t.step l := by
  induction parts generalizing l
  case nil => cases h; rfl
  case cons part parts hi =>
    rw [follow] at h
    split at h
    case h_1 => contradiction
    case h_2 => contradiction
    case h_3 => exact hi h

theorem locate_eq (h : t.locate p = .ok l) : l = t.locationOf p :=
  follow_eq h

-- Reading

theorem find_eq_ok : t.find p = .ok (l, e) ↔ t.locate p = .ok l ∧ t.entry? l = some e := by
  rw [find, bind_eq_ok]
  constructor
  case mp =>
    intro ⟨k, hk, h⟩
    split at h
    case h_1 he => cases h; exact ⟨hk, he⟩
    case h_2    => contradiction
  case mpr =>
    intro ⟨hl, he⟩
    exact ⟨l, hl, by rw [he]⟩

theorem failAt_eq_ok {α : Type} {x : Except Cause α} {a : α} : failAt p x = .ok a ↔ x = .ok a := by
  cases x
  case error => exact ⟨nofun, nofun⟩
  case ok    => exact ⟨fun h => by cases h; rfl, fun h => by cases h; rfl⟩

theorem readBytes_eq_ok :
    t.readBytes p = .ok bytes ↔ ∃ l, t.locate p = .ok l ∧ t.content? l = some (some bytes) := by
  simp only [readBytes, bind_eq_ok, failAt_eq_ok]
  constructor
  case mp =>
    intro ⟨⟨l, e⟩, hf, h⟩
    have ⟨hl, he⟩ := find_eq_ok.mp hf
    cases e
    case directory => contradiction
    case file      => cases h; exact ⟨l, hl, content?_eq he⟩
  case mpr =>
    intro ⟨l, hl, hc⟩
    have ⟨_, he⟩ := entry?_of_content?_file hc
    exact ⟨_, find_eq_ok.mpr ⟨hl, he⟩, rfl⟩

theorem isFile_iff : t.isFile p ↔ ∃ bytes, t.readBytes p = .ok bytes := by
  simp only [isFile, readBytes, bind_eq_ok, failAt_eq_ok]
  constructor
  case mp =>
    intro h
    split at h
    case h_1 l bytes s hf => exact ⟨bytes, _, hf, rfl⟩
    case h_2              => contradiction
  case mpr =>
    intro ⟨bytes, ⟨l, e⟩, hf, h⟩
    cases e
    case directory => contradiction
    case file      => rw [hf]

theorem isDirectory_iff :
    t.isDirectory p ↔ ∃ l, t.locate p = .ok l ∧ t.content? l = some none := by
  constructor
  case mp =>
    intro h
    rw [isDirectory] at h
    split at h
    case h_1 l s hf =>
      have ⟨hl, he⟩ := find_eq_ok.mp hf
      exact ⟨l, hl, content?_eq he⟩
    case h_2 => contradiction
  case mpr =>
    intro ⟨l, hl, hc⟩
    have ⟨_, he⟩ := entry?_of_content?_directory hc
    rw [isDirectory, find_eq_ok.mpr ⟨hl, he⟩]

theorem not_isFile_of_isDirectory (h : t.isDirectory p) : ¬t.isFile p := by
  intro hf
  have ⟨l, hl, hd⟩ := isDirectory_iff.mp h
  have ⟨_, hr⟩ := isFile_iff.mp hf
  have ⟨l', hl', hc⟩ := readBytes_eq_ok.mp hr
  cases hl.symm.trans hl'
  cases hd.symm.trans hc

namespace KeepsBut

variable {ls : List Location}

theorem readBytes (h : KeepsBut ls t t') (hp : t.locationOf p ∉ ls)
    (hr : t.readBytes p = .ok bytes) : t'.readBytes p = .ok bytes := by
  have ⟨l, hl, hc⟩ := readBytes_eq_ok.mp hr
  rw [← locate_eq hl] at hp
  exact readBytes_eq_ok.mpr ⟨l, h.locate hl, h.file hp hc⟩

theorem isDirectory (h : KeepsBut ls t t') (hd : t.isDirectory p) : t'.isDirectory p :=
  have ⟨l, hl, hc⟩ := isDirectory_iff.mp hd
  isDirectory_iff.mpr ⟨l, h.locate hl, h.directory hc⟩

-- Putting a file where no directory is.
theorem of_sets (hs : Sets l (some bytes) t t') (hl : t.content? l ≠ some none) :
    KeepsBut [l] t t' where
  toSamePaths := hs.toSamePaths
  directory {k} hk := by
    have hn : k ≠ l := fun he => hl (he ▸ hk)
    rw [hs.content?, if_neg hn, hk]
  file {k _} hn hk := by rw [hs.content?, if_neg (List.ne_of_not_mem_cons hn), hk]

-- Putting anything where nothing is.
theorem of_sets_missing {c : Option (List UInt8)} (hs : Sets l c t t') (hl : t.content? l = none) :
    KeepsBut [] t t' where
  toSamePaths := hs.toSamePaths
  directory {k} hk := by
    have hn : k ≠ l := fun he => by simp [he, hl] at hk
    rw [hs.content?, if_neg hn, hk]
  file {k _} _ hk := by
    have hn : k ≠ l := fun he => by simp [he, hl] at hk
    rw [hs.content?, if_neg hn, hk]

end KeepsBut

-- Writing

theorem site_eq_ok : t.site p = .ok l ↔ p.hasNull = false ∧ t.locate p = .ok l := by
  rw [site]
  cases p.hasNull <;> simp

theorem writable_eq_ok (h : t.writable p = .ok l) :
    t.site p = .ok l ∧ t.content? l ≠ some none := by
  simp only [writable, bind_eq_ok, failAt_eq_ok] at h
  have ⟨k, hk, h⟩ := h
  split at h
  case h_1 => contradiction
  case h_2 he =>
    cases h
    exact ⟨hk, by rw [content?_eq he]; nofun⟩
  case h_3 he _ =>
    cases h
    exact ⟨hk, by rw [content?, he]; nofun⟩
  case h_4 => contradiction
  case h_5 => contradiction

theorem ne_nil_of_content? (h : t.content? l ≠ some none) : l ≠ [] :=
  fun he => h (he ▸ content?_nil t)

theorem puts_writeBytes (h : t.writeBytes p bytes = .ok t') :
    ∃ l s, t.locate p = .ok l ∧ t.content? l ≠ some none ∧ Puts l (.file bytes s) t t' := by
  simp only [writeBytes, bind_eq_ok] at h
  have ⟨l, hw, h⟩ := h
  have ⟨hl, hc⟩ := writable_eq_ok hw
  have hs := Puts.add (ne_nil_of_content? hc) t (.file bytes (.fresh t.changes))
  cases h
  exact ⟨l, _, (site_eq_ok.mp hl).right, hc, hs.counted _⟩

theorem writeBytes_eq_ok (h : t.writeBytes p bytes = .ok t') :
    ∃ l, t.locate p = .ok l ∧ t.content? l ≠ some none ∧ Sets l (some bytes) t t' :=
  have ⟨l, _, hl, hc, hs⟩ := puts_writeBytes h
  ⟨l, hl, hc, hs.toSets⟩

theorem keepsBut_writeBytes (h : t.writeBytes p bytes = .ok t') : KeepsBut [t.locationOf p] t t' :=
  have ⟨_, hl, hc, hs⟩ := writeBytes_eq_ok h
  locate_eq hl ▸ KeepsBut.of_sets hs hc

-- What was written can be read.
theorem readBytes_writeBytes (h : t.writeBytes p bytes = .ok t') : t'.readBytes p = .ok bytes := by
  have ⟨l, hl, hc, hs⟩ := writeBytes_eq_ok h
  refine readBytes_eq_ok.mpr ⟨l, (KeepsBut.of_sets hs hc).locate hl, ?_⟩
  rw [hs.content?, if_pos rfl]

theorem puts_makeDirectory (h : t.makeDirectory p = .ok t') :
    ∃ l s, t.site p = .ok l ∧ t.content? l = none ∧ t.content? l.dropLast = some none ∧
      Puts l (.directory s) t t' := by
  simp only [makeDirectory, bind_eq_ok] at h
  have ⟨l, hl, h⟩ := h
  split at h
  case h_1 => contradiction
  case h_2 he hd =>
    have hc : t.content? l = none := by rw [content?, he]; rfl
    have hs := Puts.add (ne_nil_of_content? (by rw [hc]; nofun)) t (.directory (.fresh t.changes))
    cases h
    exact ⟨l, _, hl, hc, content?_eq hd, hs.counted _⟩
  case h_3 => contradiction
  case h_4 => contradiction

theorem keepsBut_makeDirectory (h : t.makeDirectory p = .ok t') : KeepsBut [] t t' :=
  have ⟨_, _, _, hc, _, hs⟩ := puts_makeDirectory h
  .of_sets_missing hs.toSets hc

-- What holds of each directory that is made holds of all.
theorem makeDirectories_induction {R : Tree → Tree → Prop} (hr : ∀ t, R t t)
    (ht : ∀ {t t' t''}, R t t' → R t' t'' → R t t'')
    (hm : ∀ {t t' p}, t.makeDirectory p = .ok t' → R t t') {root : Text} {parts : List Text}
    (h : makeDirectories.go root t parts = .ok t') : R t t' := by
  have ensured {t t' : Tree} {p : Path} (h : t.ensureDirectory p = .ok t') : R t t' := by
    rw [ensureDirectory] at h
    split at h
    case h_1 => contradiction
    case h_2 =>
      split at h
      case isTrue  => cases h; exact hr _
      case isFalse => contradiction
    case h_3 hd => cases h; exact hm hd
  induction parts generalizing t t'
  case nil => exact ensured (failAt_eq_ok.mp h)
  case cons part above hi =>
    rw [makeDirectories.go] at h
    split at h
    case h_1 =>
      have ⟨_, ha, h⟩ := bind_eq_ok.mp h
      exact ht (hi ha) (ensured (failAt_eq_ok.mp h))
    case h_2 => exact ensured (failAt_eq_ok.mp h)

theorem keepsBut_makeDirectories {root : Text} {parts : List Text}
    (h : makeDirectories.go root t parts = .ok t') : KeepsBut [] t t' :=
  makeDirectories_induction (.refl []) .trans keepsBut_makeDirectory h

-- What stays the same

-- Whether there is something, and whether that is a file.
def kind? (t : Tree) (l : Location) : Option Bool :=
  (t.content? l).map Option.isSome

theorem kind?_eq_none : t.kind? l = none ↔ t.content? l = none :=
  Option.map_eq_none_iff

theorem kind?_eq_directory : t.kind? l = some false ↔ t.content? l = some none := by
  rw [kind?]
  obtain _ | _ | _ := t.content? l <;> simp

theorem kind?_eq_file : t.kind? l = some true ↔ ∃ bytes, t.content? l = some (some bytes) := by
  rw [kind?]
  obtain _ | _ | _ := t.content? l <;> simp

-- A directory is known by its kind, and a file by what it holds.
theorem content?_congr (hk : t'.kind? l = t.kind? l) (hf : t'.file? l = t.file? l) :
    t'.content? l = t.content? l := by
  unfold kind? content? at hk
  unfold file? at hf
  unfold content?
  revert hk hf
  rcases t.entry? l with _ | ⟨_ | ⟨bytes, s⟩⟩ <;> rcases t'.entry? l with _ | ⟨_ | ⟨bytes', s'⟩⟩ <;>
    simp +contextual [Entry.bytes?, Entry.file?]

-- The trees differ in what the files at some locations hold, and in when directories were changed.
structure SameBut (ls : List Location) (t t' : Tree) : Prop extends SamePaths t t' where
  kind? (l : Location) : t'.kind? l = t.kind? l
  file? {l : Location} : l ∉ ls → t'.file? l = t.file? l

namespace SameBut

variable {ls ls' : List Location}

theorem refl (ls : List Location) (t : Tree) : SameBut ls t t :=
  ⟨.refl t, fun _ => rfl, fun _ => rfl⟩

theorem trans (h : SameBut ls t t') (h' : SameBut ls t' t'') : SameBut ls t t'' where
  toSamePaths := h.toSamePaths.trans h'.toSamePaths
  kind? l := (h'.kind? l).trans (h.kind? l)
  file? hl := (h'.file? hl).trans (h.file? hl)

theorem mono (hs : ls ⊆ ls') (h : SameBut ls t t') : SameBut ls' t t' :=
  ⟨h.toSamePaths, h.kind?, fun hl => h.file? fun hm => hl (hs hm)⟩

theorem content? (h : SameBut ls t t') (hl : l ∉ ls) : t'.content? l = t.content? l :=
  content?_congr (h.kind? l) (h.file? hl)

theorem keepsBut (h : SameBut ls t t') : KeepsBut ls t t' where
  toSamePaths := h.toSamePaths
  directory hl := kind?_eq_directory.mp ((h.kind? _).trans (kind?_eq_directory.mpr hl))
  file hn hl := (h.content? hn).trans hl

-- A file is put where one is already.
theorem of_puts {old : List UInt8} {s : Stamp} (hs : Puts l (.file bytes s) t t')
    (hl : t.content? l = some (some old)) : SameBut [l] t t' where
  toSamePaths := hs.toSamePaths
  kind? k := by
    rw [Tree.kind?, Tree.kind?, hs.content?]
    split
    case isTrue hk => rw [hk, hl]; rfl
    case isFalse   => rfl
  file? hk := (hs.file? _).trans (if_neg (List.ne_of_not_mem_cons hk))

end SameBut

-- Logs

theorem puts_append (h : t.content? l = some (some bytes)) (text : Text) :
    ∃ s, Puts l (.file (bytes ++ Utf8.encode text) s) t (t.append l text) := by
  have ⟨s, he⟩ := entry?_of_content?_file h
  have hs := Puts.put (ne_nil_of_content? (by rw [h]; nofun)) t
    (.file (bytes ++ Utf8.encode text) (.fresh t.changes))
  rw [Tree.append, he]
  exact ⟨_, hs.counted _⟩

-- Nothing is made to append to.
theorem append_eq_self (h : ∀ bytes, t.content? l ≠ some (some bytes)) (text : Text) :
    t.append l text = t := by
  rw [Tree.append]
  split
  case h_1 bytes s he => exact absurd (content?_eq he) (h bytes)
  case h_2            => rfl

theorem SameBut.append (t : Tree) (l : Location) (text : Text) : SameBut [l] t (t.append l text) := by
  by_cases h : ∃ bytes, t.content? l = some (some bytes)
  case pos =>
    obtain ⟨bytes, hc⟩ := h
    obtain ⟨_, hs⟩ := puts_append hc text
    exact of_puts hs hc
  case neg =>
    rw [append_eq_self (not_exists.mp h)]
    exact refl _ _

theorem content?_append (t : Tree) (l : Location) (text : Text) (k : Location) :
    (t.append l text).content? k =
      if k = l then (t.content? l).map (Option.map (· ++ Utf8.encode text)) else t.content? k := by
  by_cases h : ∃ bytes, t.content? l = some (some bytes)
  case pos =>
    obtain ⟨bytes, hc⟩ := h
    obtain ⟨_, hs⟩ := puts_append hc text
    rw [hs.content?, hc]
    rfl
  case neg =>
    rw [append_eq_self (not_exists.mp h)]
    split
    case isFalse  => rfl
    case isTrue hk =>
      rw [hk]
      rcases hc : t.content? l with _ | _ | bytes
      · rfl
      · rfl
      · exact absurd ⟨bytes, hc⟩ h

-- A log that is opened is the one that is there, or a new one.
theorem openLog_eq_ok_cases (h : t.openLog p = .ok (t', l)) : t.locate p = .ok l ∧
    (t' = t ∨ t.content? l = none ∧ ∃ s, Puts l (.file [] s) t t') := by
  have ⟨k, hw, h⟩ := bind_eq_ok.mp h
  have ⟨hl, hc⟩ := writable_eq_ok hw
  split at h
  case h_1 => cases h; exact ⟨(site_eq_ok.mp hl).right, .inl rfl⟩
  case h_2 he =>
    cases h
    have hs := Puts.add (ne_nil_of_content? hc) t (.file [] (.fresh t.changes))
    exact ⟨(site_eq_ok.mp hl).right, .inr ⟨by rw [content?, he]; rfl, _, hs.counted _⟩⟩

theorem keepsBut_openLog (h : t.openLog p = .ok (t', l)) : KeepsBut [] t t' := by
  obtain ⟨_, rfl | ⟨hc, _, hs⟩⟩ := openLog_eq_ok_cases h
  · exact .refl _ _
  · exact .of_sets_missing hs.toSets hc

end Tree
end GherkinView.File
