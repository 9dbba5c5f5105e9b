import GherkinView.Proofs.File.Frame

namespace GherkinView.File.Tree

variable {t t' t'' : Tree} {l : Location} {p : Path} {e : Entry} {bytes : List UInt8}
variable {ls ls' : List Location}

-- At all other locations each file is the one that was last written there, or there is none still, and
-- nothing that was there turns into another kind.
structure Spares (ls : List Location) (t t' : Tree) : Prop extends SamePaths t t' where
  kind? {l : Location} {isFile : Bool} : t.kind? l = some isFile → t'.kind? l = some isFile
  file? {l : Location} : l ∉ ls → t'.file? l = t.file? l

namespace Spares

theorem refl (ls : List Location) (t : Tree) : Spares ls t t :=
  ⟨.refl t, id, fun _ => rfl⟩

theorem trans (h : Spares ls t t') (h' : Spares ls t' t'') : Spares ls t t'' :=
  ⟨h.toSamePaths.trans h'.toSamePaths, h'.kind? ∘ h.kind?, fun hl => (h'.file? hl).trans (h.file? hl)⟩

theorem mono (hs : ls ⊆ ls') (h : Spares ls t t') : Spares ls' t t' :=
  ⟨h.toSamePaths, h.kind?, fun hl => h.file? fun hm => hl (hs hm)⟩

theorem keepsBut (h : Spares ls t t') : KeepsBut ls t t' where
  toSamePaths := h.toSamePaths
  directory hc := kind?_eq_directory.mp (h.kind? (kind?_eq_directory.mpr hc))
  file hl hc := by
    have hk := kind?_eq_file.mpr ⟨_, hc⟩
    rw [content?_congr ((h.kind? hk).trans hk.symm) (h.file? hl), hc]

-- What is there stays a directory, or none.
theorem isDirectory_eq (h : Spares ls t t') (hp : t.exists? p) : t'.isDirectory p = t.isDirectory p := by
  obtain ⟨⟨l, e⟩, hf⟩ : ∃ found, t.find p = .ok found := by
    cases hf : t.find p
    case ok found  => exact ⟨found, rfl⟩
    case error     => simp [exists?, hf, Except.toOption] at hp
  have ⟨hl, he⟩ := find_eq_ok.mp hf
  have hk : t.kind? l = some e.bytes?.isSome := by rw [Tree.kind?, content?_eq he, Option.map_some]
  have hd {t : Tree} (hl : t.locate p = .ok l) : t.isDirectory p ↔ t.kind? l = some false := by
    rw [isDirectory_iff, kind?_eq_directory, hl]
    constructor
    case mp =>
      rintro ⟨_, he, hc⟩
      exact Except.ok.inj he ▸ hc
    case mpr => exact fun hc => ⟨l, rfl, hc⟩
  rw [Bool.eq_iff_iff, hd hl, hd (h.keepsBut.locate hl), hk, h.kind? hk]

-- An entry is put where there was nothing, or one of its kind.
theorem of_puts (hs : Puts l e t t') (hk : ∀ isFile, t.kind? l = some isFile → isFile = e.bytes?.isSome)
    (hf : l ∈ ls ∨ e.file? = t.file? l) : Spares ls t t' where
  toSamePaths := hs.toSamePaths
  kind? {k isFile} h := by
    rw [Tree.kind?, hs.content?]
    split
    case isTrue he  => rw [hk isFile (he ▸ h)]; rfl
    case isFalse hn => exact h
  file? {k} hn := by
    rw [hs.file?]
    split
    case isFalse   => rfl
    case isTrue he => exact he ▸ hf.resolve_left (he ▸ hn)

theorem of_puts_file {s : Stamp} (hs : Puts l (.file bytes s) t t') (hc : t.content? l ≠ some none) :
    Spares [l] t t' := by
  refine of_puts hs (fun isFile hk => ?_) (.inl List.mem_cons_self)
  cases isFile
  case true  => rfl
  case false => exact absurd (kind?_eq_directory.mp hk) hc

theorem makeDirectory (h : t.makeDirectory p = .ok t') : Spares [] t t' := by
  obtain ⟨l, s, _, hc, _, hs⟩ := puts_makeDirectory h
  refine of_puts hs (fun isFile hk => ?_) (.inr ?_)
  case refine_1 => rw [kind?_eq_none.mpr hc] at hk; contradiction
  case refine_2 => rw [Tree.file?, Option.map_eq_none_iff.mp hc]; rfl

theorem makeDirectories (h : t.makeDirectories p = .ok t') : Spares [] t t' :=
  makeDirectories_induction (refl []) trans makeDirectory h

theorem writeBytes (h : t.writeBytes p bytes = .ok t') : Spares [t.locationOf p] t t' :=
  have ⟨_, _, hl, hc, hs⟩ := puts_writeBytes h
  locate_eq hl ▸ of_puts_file hs hc

theorem openLog (h : t.openLog p = .ok (t', l)) : Spares [l] t t' := by
  obtain ⟨_, rfl | ⟨hc, _, hs⟩⟩ := openLog_eq_ok_cases h
  · exact refl _ _
  · exact of_puts_file hs (by rw [hc]; nofun)

end Spares

theorem SameBut.spares (h : SameBut ls t t') : Spares ls t t' :=
  ⟨h.toSamePaths, fun hk => (h.kind? _).trans hk, h.file?⟩

end GherkinView.File.Tree
