import GherkinView.Proofs.File.Targets

namespace GherkinView.File.Tree

variable {t t' t₀ t₁ t₁' : Tree} {l k : Location} {p : Path} {bytes : List UInt8}
variable {logs gone : List Location}

-- The second tree lacks those files at `gone` that the first one still has as they were in `t₀`, and else
-- is the same, but for what the files at `logs` hold.
structure Lacks (logs gone : List Location) (t₀ t t' : Tree) : Prop extends SamePaths t t' where
  kind? (l : Location) : t'.kind? l = t.kind? l ∨ l ∈ gone ∧ t'.kind? l = none ∧ t.kind? l = some true
  content? {l : Location} : l ∉ logs →
    t'.content? l = t.content? l ∨ l ∈ gone ∧ t'.content? l = none ∧ t.content? l = t₀.content? l

namespace Lacks

theorem same (h : Lacks logs gone t₀ t t') (hs : SameBut logs t t₁) (hs' : SameBut logs t' t₁') :
    Lacks logs gone t₀ t₁ t₁' where
  toSamePaths := (hs.symm.trans h.toSamePaths).trans hs'.toSamePaths
  kind? l := by
    rw [hs.kind?, hs'.kind?]
    exact h.kind? l
  content? hl := by
    rw [hs.content? hl, hs'.content? hl]
    exact h.content? hl

theorem directory_iff (h : Lacks logs gone t₀ t t') :
    t'.content? l = some none ↔ t.content? l = some none := by
  rw [← kind?_eq_directory, ← kind?_eq_directory]
  obtain he | ⟨_, hn, hf⟩ := h.kind? l
  case inl => rw [he]
  case inr => rw [hn, hf]; decide

theorem absent (h : Lacks logs gone t₀ t t') (hl : t.content? l = none) : t'.content? l = none := by
  obtain he | ⟨_, hn, _⟩ := h.kind? l
  · exact kind?_eq_none.mp (he.trans (kind?_eq_none.mpr hl))
  · exact kind?_eq_none.mp hn

theorem keepsBut (h : Lacks logs gone t₀ t t') : KeepsBut (logs ++ gone) t t' where
  toSamePaths := h.toSamePaths
  directory hl := h.directory_iff.mpr hl
  file hn hl := by
    have ⟨hn, hg⟩ := not_or.mp (mt List.mem_append.mpr hn)
    exact ((h.content? hn).resolve_right fun hm => hg hm.left).trans hl

theorem keptBut (h : Lacks logs gone t₀ t t') : KeepsBut logs t' t where
  toSamePaths := h.symm
  directory hl := h.directory_iff.mp hl
  file hn hl := by
    obtain he | ⟨_, he, _⟩ := h.content? hn
    · exact he.symm.trans hl
    · exact absurd (he.symm.trans hl) nofun

theorem locate_iff (h : Lacks logs gone t₀ t t') : t'.locate p = .ok l ↔ t.locate p = .ok l :=
  ⟨h.keptBut.locate, h.keepsBut.locate⟩

theorem isDirectory_eq (h : Lacks logs gone t₀ t t') : t'.isDirectory p = t.isDirectory p :=
  Bool.eq_iff_iff.mpr ⟨h.keptBut.isDirectory, h.keepsBut.isDirectory⟩

-- What is missing on the way of a path is missing there, too.
theorem follow_missing (h : Lacks logs gone t₀ t t') {parts : List Text}
    (hf : t.follow l parts = .error .missing) : t'.follow l parts = .error .missing := by
  induction parts generalizing l
  case nil => contradiction
  case cons part parts hi =>
    rw [Tree.follow] at hf ⊢
    cases he : t.entry? l <;> rw [he] at hf
    case none =>
      have hn : t.content? l = none := by rw [Tree.content?, he]; rfl
      rw [Option.map_eq_none_iff.mp (h.absent hn)]
    case some e =>
      cases e
      case file => cases hf
      case directory =>
        obtain ⟨_, he'⟩ := entry?_of_content?_directory (h.directory_iff.mpr (content?_eq he))
        rw [he', h.step_eq]
        exact hi hf

theorem locate_missing (h : Lacks logs gone t₀ t t') (hl : t.locate p = .error .missing) :
    t'.locate p = .error .missing := by
  rw [Tree.locate, h.home]
  exact h.follow_missing hl

theorem site_iff (h : Lacks logs gone t₀ t t') : t'.site p = .ok l ↔ t.site p = .ok l := by
  rw [site_eq_ok, site_eq_ok, h.locate_iff]

theorem site_missing (h : Lacks logs gone t₀ t t') (hl : t.site p = .error .missing) :
    t'.site p = .error .missing := by
  rw [Tree.site] at hl ⊢
  split at hl
  case isTrue     => cases hl
  case isFalse hn => rw [if_neg hn, h.locate_missing hl]

-- The same is put into both.
theorem sets {c : Option (List UInt8)} (h : Lacks logs gone t₀ t t') (hs : Sets l c t t₁)
    (hs' : Sets l c t' t₁') : Lacks logs gone t₀ t₁ t₁' where
  toSamePaths := (hs.symm.trans h.toSamePaths).trans hs'.toSamePaths
  kind? k := by
    rw [Tree.kind?, Tree.kind?, hs.content?, hs'.content?]
    split
    case isTrue  => exact .inl rfl
    case isFalse => exact h.kind? k
  content? {k} hk := by
    rw [hs.content?, hs'.content?]
    split
    case isTrue  => exact .inl rfl
    case isFalse => exact h.content? hk

end Lacks

-- Making directories

theorem makeDirectory_eq_ok (h : t.makeDirectory p = .ok t₁) :
    ∃ l, t.site p = .ok l ∧ t.content? l = none ∧ t.content? l.dropLast = some none ∧
      Sets l none t t₁ :=
  have ⟨l, _, hl, hc, hd, hs⟩ := puts_makeDirectory h
  ⟨l, hl, hc, hd, hs.toSets⟩

theorem makeDirectory_free (hl : t.site p = .ok l) (hc : t.content? l = none)
    (hd : t.content? l.dropLast = some none) :
    ∃ t₁, t.makeDirectory p = .ok t₁ ∧ Sets l none t t₁ := by
  have ⟨s, hd⟩ := entry?_of_content?_directory hd
  have hn := Option.map_eq_none_iff.mp hc
  have hs := Puts.add (ne_nil_of_content? (by rw [hc]; nofun)) t (.directory (.fresh t.changes))
  rw [makeDirectory, hl]
  dsimp [bind, Except.bind]
  rw [hn, hd]
  exact ⟨_, rfl, (hs.counted _).toSets⟩

theorem makeDirectory_exists (hl : t.site p = .ok l) (hc : t.content? l ≠ none) :
    t.makeDirectory p = .error .exists := by
  have ⟨e, he⟩ := Option.ne_none_iff_exists'.mp (mt (congrArg (Option.map Entry.bytes?)) hc)
  rw [makeDirectory, hl]
  dsimp [bind, Except.bind]
  rw [he]

theorem makeDirectory_missing : t.makeDirectory p = .error .missing ↔ t.site p = .error .missing ∨
    ∃ l, t.site p = .ok l ∧ t.content? l = none ∧ t.content? l.dropLast = none := by
  rw [makeDirectory]
  cases t.site p
  case error c => simp [bind, Except.bind]
  case ok l =>
    simp only [bind, Except.bind, reduceCtorEq, false_or, Except.ok.injEq, exists_eq_left']
    split
    case h_1 he    => simp [content?_eq he]
    case h_2 hd    => simp [content?_eq hd]
    case h_3 hd    => simp [content?_eq hd]
    case h_4 hn hd => simp [content?, hn, hd]

theorem ensureDirectory_missing :
    t.ensureDirectory p = .error .missing ↔ t.makeDirectory p = .error .missing := by
  rw [ensureDirectory]
  split
  case h_1 h => exact iff_of_true rfl h
  case h_3 h => exact iff_of_false (by simp) (by simp [h])
  case h_2 c hc h =>
    have hn : c ≠ .missing := fun he => hc he
    rw [h]
    split
    case isTrue  => simp [hn]
    case isFalse => rfl

theorem ensureDirectory_of_isDirectory (h : t.isDirectory p) : t.ensureDirectory p = .ok t := by
  obtain ⟨l, hl, hc⟩ := isDirectory_iff.mp h
  rw [ensureDirectory]
  cases hn : p.hasNull
  case true =>
    rw [makeDirectory, site, if_pos hn]
    exact if_pos h
  case false =>
    rw [makeDirectory_exists (site_eq_ok.mpr ⟨hn, hl⟩) (by simp [hc])]
    exact if_pos h

namespace Lacks

variable {root : Text} {parts : List Text}

theorem ensureDirectory (h : Lacks logs gone t₀ t t') (he : t.ensureDirectory p = .ok t₁) :
    ∃ t₁', t'.ensureDirectory p = .ok t₁' ∧ Lacks logs gone t₀ t₁ t₁' := by
  rw [Tree.ensureDirectory] at he
  split at he
  case h_1 => contradiction
  case h_2 =>
    split at he
    case isFalse => contradiction
    case isTrue hd =>
      cases he
      exact ⟨t', ensureDirectory_of_isDirectory (h.isDirectory_eq ▸ hd), h⟩
  case h_3 hm =>
    cases he
    obtain ⟨l, hl, hc, hd, hs⟩ := makeDirectory_eq_ok hm
    obtain ⟨t₁', hm', hs'⟩ :=
      makeDirectory_free (h.site_iff.mpr hl) (h.absent hc) (h.directory_iff.mpr hd)
    exact ⟨t₁', by rw [Tree.ensureDirectory, hm'], h.sets hs hs'⟩

theorem ensureDirectory_missing (h : Lacks logs gone t₀ t t') (he : t.ensureDirectory p = .error .missing) :
    t'.ensureDirectory p = .error .missing := by
  rw [Tree.ensureDirectory_missing, makeDirectory_missing] at he ⊢
  obtain he | ⟨l, hl, hc, hd⟩ := he
  case inl => exact .inl (h.site_missing he)
  case inr => exact .inr ⟨l, h.site_iff.mpr hl, h.absent hc, h.absent hd⟩

-- Induction on the parts above, which are made first.
theorem makeDirectories (h : Lacks logs gone t₀ t t') (hm : makeDirectories.go root t parts = .ok t₁) :
    ∃ t₁', makeDirectories.go root t' parts = .ok t₁' ∧ Lacks logs gone t₀ t₁ t₁' := by
  induction parts generalizing t t' t₁
  case nil =>
    obtain ⟨t₁', he, h⟩ := h.ensureDirectory (failAt_eq_ok.mp hm)
    exact ⟨t₁', failAt_eq_ok.mpr he, h⟩
  case cons part above hi =>
    rw [makeDirectories.go] at hm ⊢
    split at hm
    case h_1 hn =>
      obtain ⟨t₂, ha, hm⟩ := bind_eq_ok.mp hm
      obtain ⟨t₂', ha', h₂⟩ := hi h ha
      obtain ⟨t₁', he, h₁⟩ := h₂.ensureDirectory (failAt_eq_ok.mp hm)
      rw [h.ensureDirectory_missing hn]
      exact ⟨t₁', bind_eq_ok.mpr ⟨t₂', ha', failAt_eq_ok.mpr he⟩, h₁⟩
    case h_2 hn =>
      obtain ⟨t₁', he, h⟩ := h.ensureDirectory (failAt_eq_ok.mp hm)
      rw [he]
      exact ⟨t₁', rfl, h⟩

end Lacks

-- Writing

-- The last step starts from a directory.
theorem step_of_follow_concat {part : Text} {parts : List Text}
    (h : t.follow k (parts ++ [part]) = .ok l) :
    ∃ above, t.content? above = some none ∧ l = t.step above part := by
  induction parts generalizing k
  case nil =>
    rw [List.nil_append, follow] at h
    split at h
    case h_1 => contradiction
    case h_2 => contradiction
    case h_3 he =>
      cases h
      exact ⟨k, content?_eq he, rfl⟩
  case cons part' parts hi =>
    rw [List.cons_append, follow] at h
    split at h
    case h_1 => contradiction
    case h_2 => contradiction
    case h_3 => exact hi h

-- A file that no link leads to stands in a directory.
theorem directory_of_locate (hu : t.links = []) (hn : p.name ≠ []) (hd : p.name ≠ ['.', '.']) (h : t.locate p = .ok l) :
    t.content? l.dropLast = some none := by
  have ⟨parts, hp⟩ := Path.parts_eq_concat hn
  rw [locate, hp] at h
  obtain ⟨above, ha, rfl⟩ := step_of_follow_concat h
  rwa [step_eq_advance hu, advance, if_neg hd, List.dropLast_concat]

theorem writable_of_directory (hl : t.site p = .ok l) (hc : t.content? l ≠ some none)
    (hd : t.content? l.dropLast = some none) : t.writable p = .ok l := by
  have ⟨s, hd⟩ := entry?_of_content?_directory hd
  rw [writable, hl]
  dsimp [bind, Except.bind, failAt]
  rw [hd]
  cases he : t.entry? l
  case none => rfl
  case some e =>
    cases e
    case directory => exact absurd (content?_eq he) hc
    case file      => rfl

namespace Lacks

theorem writeBytes (h : Lacks logs gone t₀ t t') (hu : t.links = []) (hn : p.name ≠ []) (hd : p.name ≠ ['.', '.'])
    (hw : t.writeBytes p bytes = .ok t₁) :
    ∃ t₁', t'.writeBytes p bytes = .ok t₁' ∧ Lacks logs gone t₀ t₁ t₁' := by
  have ⟨l, hl, hc, hs⟩ := writeBytes_eq_ok hw
  have ⟨_, ho, _⟩ := bind_eq_ok.mp hw
  have hp := (site_eq_ok.mp (writable_eq_ok ho).left).left
  have hf : t'.writable p = .ok l := writable_of_directory (h.site_iff.mpr (site_eq_ok.mpr ⟨hp, hl⟩))
    (mt h.directory_iff.mp hc) (h.directory_iff.mpr (directory_of_locate hu hn hd hl))
  have ⟨t₁', hw'⟩ : ∃ t₁', t'.writeBytes p bytes = .ok t₁' := ⟨_, bind_eq_ok.mpr ⟨l, hf, rfl⟩⟩
  have ⟨l', hl', _, hs'⟩ := writeBytes_eq_ok hw'
  obtain rfl : l' = l := Except.ok.inj (hl'.symm.trans (h.locate_iff.mpr hl))
  exact ⟨t₁', hw', h.sets hs hs'⟩

end Lacks

end GherkinView.File.Tree
