import GherkinView.Proofs.Script.Provenance

namespace GherkinView.Script

-- From line `i` on, up to where line `j` starts, the running depth stays above what it was before `i`.
def StandsInside (ls : List Text) (i j : Nat) : Prop :=
  ∀ k ≤ j, i < k → depthBehind ls i < depthBehind ls k

def OpensBlock (ls : List Text) (i : Nat) : Prop :=
  depthBehind ls i < depthBehind ls (i + 1)

-- Line `e` is the first one to bring the depth back to what it was before line `i`, or below.
structure EndsBlock (ls : List Text) (i e : Nat) : Prop where
  le : i ≤ e
  inside : StandsInside ls i e
  back : depthBehind ls (e + 1) ≤ depthBehind ls i

def kindAt? (ls : List Text) (i : Nat) : Option LineKind :=
  (classify ls)[i]?.map Line.kind

def IsBoundaryAt (ls : List Text) (i : Nat) : Prop :=
  ∃ kind ∈ kindAt? ls i, kind.isBoundary = true

def IsStepAt (ls : List Text) (i : Nat) : Prop :=
  ∃ label code, kindAt? ls i = some (.step label code)

-- The setup line that a step stands behind.
structure IsSetupOf (ls : List Text) (i j : Nat) : Prop where
  before : i < j
  setup : kindAt? ls i = some .setup
  nearest : ∀ k < j, i < k → kindAt? ls k ≠ some .setup

-- The step of line `j` is one of the case, or of the background, that line `i` marks.
inductive Attached (source : Text) (i j : Nat) : Prop
  | case {u : Suite} {c : Case} {s : Step} : u ∈ (read source).suites → c ∈ u.cases → s ∈ c.steps →
    c.line = i + 1 → s.line = j + 1 → Attached source i j
  | background {u : Suite} {steps : List Step} {s : Step} : u ∈ (read source).suites →
    u.background = some steps → s ∈ steps → IsSetupOf (Text.lines source) i j → s.line = j + 1 →
    Attached source i j

-- If line `i` opens a block, then only steps that stand inside are attached to it.
def KeepsToBlock (source : Text) (i : Nat) : Prop :=
  OpensBlock (Text.lines source) i →
    ∀ j, Attached source i j → StandsInside (Text.lines source) i j

section Depth

variable {ls : List Text} {i j : Nat}

theorem exists_endsBlock (h : ¬StandsInside ls i j) : ∃ e < j, EndsBlock ls i e := by
  induction j
  case zero =>
    have : StandsInside ls i 0 := fun k hj hk => by omega
    contradiction
  case succ j hi =>
    by_cases hj : StandsInside ls i j
    case neg =>
      have ⟨e, he, hb⟩ := hi hj
      exact ⟨e, by omega, hb⟩
    case pos =>
      refine ⟨j, by omega, ?_, hj, ?_⟩
      case refine_1 =>
        by_contra hij
        exact h fun k hkj hk => by omega
      case refine_2 =>
        by_contra hb
        refine h fun k hkj hk => ?_
        obtain hkj | rfl := Nat.le_or_eq_of_le_succ hkj
        · exact hj k hkj hk
        · exact Int.not_le.mp hb

theorem not_standsInside_of_endsBlock {e : Nat} (he : EndsBlock ls i e) (hj : e < j) :
    ¬StandsInside ls i j := by
  intro h
  have := h (e + 1) hj (Nat.lt_succ_of_le he.le)
  have := he.back
  omega

end Depth

section Places

variable {ls : List Text} {i j : Nat} {l : Line} {s : Step}

theorem not_isBoundary_of_step? (h : l.step? = some s) : l.kind.isBoundary = false := by
  unfold Line.step? at h
  split at h
  case h_1 hk => rw [hk]; rfl
  case h_2    => contradiction

-- The steps ahead, by their places.
theorem mem_stepsAhead {ms : List Line} :
    s ∈ stepsAhead ms ↔ ∃ j : Nat, ms[j]?.bind Line.step? = some s ∧
      ∀ k < j, ∀ m ∈ ms[k]?, m.kind.isBoundary = false := by
  induction ms
  case nil => simp [stepsAhead]
  case cons l ms hi =>
    cases hb : l.kind.isBoundary
    case true =>
      have hn : l.step? ≠ some s := fun hs => by simp [not_isBoundary_of_step? hs] at hb
      simp only [stepsAhead_cons, hb, if_true, List.not_mem_nil, false_iff]
      rintro ⟨j, hs, hk⟩
      cases j
      case zero   => exact hn hs
      case succ j => simpa [hb] using hk 0 (Nat.succ_pos j) l rfl
    case false =>
      simp only [stepsAhead_cons, hb, Bool.false_eq_true, if_false, List.mem_append,
        Option.mem_toList, hi]
      constructor
      case mp =>
        rintro (hs | ⟨j, hs, hk⟩)
        · exact ⟨0, hs, fun k hk => absurd hk (Nat.not_lt_zero k)⟩
        · refine ⟨j + 1, hs, fun k hkj m hm => ?_⟩
          cases k
          case zero   => cases hm; exact hb
          case succ k => exact hk k (Nat.lt_of_succ_lt_succ hkj) m hm
      case mpr =>
        rintro ⟨j, hs, hk⟩
        cases j
        case zero   => exact .inl hs
        case succ j => exact .inr ⟨j, hs, fun k hkj => hk (k + 1) (Nat.succ_lt_succ hkj)⟩

theorem number_of_getElem? (h : (classify ls)[i]? = some l) : l.number = i + 1 := by
  simp only [classify, List.getElem?_mapIdx, Option.map_eq_some_iff] at h
  obtain ⟨_, _, rfl⟩ := h
  rfl

-- What line `i` is, read off the line, the depth behind it and the lines from it on.
theorem exists_of_kindAt? {kind : LineKind} (h : kindAt? ls i = some kind) :
    ∃ line ∈ ls[i]?, kind = .of (depthBehind ls (i + 1)) line (ls.drop i) := by
  simp only [kindAt?, classify, List.getElem?_mapIdx, Option.map_map, Option.map_eq_some_iff] at h
  obtain ⟨line, hl, rfl⟩ := h
  exact ⟨line, hl, rfl⟩

theorem step_of_getElem? (h : (classify ls)[j]?.bind Line.step? = some s) :
    s.line = j + 1 ∧ IsStepAt ls j := by
  have ⟨l, hl, hs⟩ := Option.bind_eq_some_iff.mp h
  unfold Line.step? at hs
  split at hs <;> cases hs
  case h_1 label code hk =>
    refine ⟨?_, label, code, ?_⟩
    · simp [number_of_getElem? hl]
    · simp [kindAt?, hl, hk]

theorem exists_step_of_isStepAt (h : IsStepAt ls j) :
    ∃ s : Step, (classify ls)[j]?.bind Line.step? = some s ∧ s.line = j + 1 := by
  obtain ⟨label, code, hk⟩ := h
  obtain ⟨l, hl, hk⟩ := Option.map_eq_some_iff.mp hk
  have hs : (classify ls)[j]?.bind Line.step? = some ⟨label, code, l.number⟩ := by
    simp [hl, Line.step?, hk]
  exact ⟨_, hs, (step_of_getElem? hs).left⟩

-- What follows line `i`, up to the next boundary.
theorem mem_stepsAhead_drop :
    s ∈ stepsAhead ((classify ls).drop (i + 1)) ↔ ∃ j : Nat, i < j ∧
      (classify ls)[j]?.bind Line.step? = some s ∧ ∀ k < j, i < k → ¬IsBoundaryAt ls k := by
  have hb k : ¬IsBoundaryAt ls k ↔ ∀ m ∈ (classify ls)[k]?, m.kind.isBoundary = false := by
    simp [IsBoundaryAt, kindAt?]
  simp only [mem_stepsAhead, List.getElem?_drop, hb]
  constructor
  case mp =>
    rintro ⟨j, hs, hk⟩
    refine ⟨i + 1 + j, by omega, hs, fun k hkj hik => ?_⟩
    have hk := hk (k - (i + 1)) (by omega)
    rwa [Nat.add_sub_cancel' hik] at hk
  case mpr =>
    rintro ⟨j, hij, hs, hk⟩
    refine ⟨j - (i + 1), ?_, fun k hkj => hk _ (by omega) (by omega)⟩
    rwa [Nat.add_sub_cancel' hij]

theorem exists_place_of_suffix {n : Nat} {kind : LineKind} {rest : List Line}
    (h : ⟨n, kind⟩ :: rest <:+ classify ls) :
    ∃ i, n = i + 1 ∧ kindAt? ls i = some kind ∧ rest = (classify ls).drop (i + 1) := by
  obtain ⟨before, he⟩ := h
  have hl : (classify ls)[before.length]? = some ⟨n, kind⟩ := by simp [← he]
  refine ⟨before.length, number_of_getElem? hl, ?_, ?_⟩
  · simp [kindAt?, hl]
  · simp [← he]

end Places

section Setup

variable {ls : List Text} {i i' j : Nat} {s : Step}

theorem IsSetupOf.inj (h : IsSetupOf ls i j) (h' : IsSetupOf ls i' j) : i = i' := by
  by_contra hn
  obtain hl | hl := Nat.lt_or_gt_of_ne hn
  · exact h.nearest i' h'.before hl h'.setup
  · exact h'.nearest i h.before hl h.setup

-- The steps ahead of line `i`, by the numbers of their lines.
theorem exists_mem_stepsAhead_iff :
    (∃ s ∈ stepsAhead ((classify ls).drop (i + 1)), s.line = j + 1) ↔
      i < j ∧ IsStepAt ls j ∧ ∀ k < j, i < k → ¬IsBoundaryAt ls k := by
  simp only [mem_stepsAhead_drop]
  constructor
  case mp =>
    rintro ⟨s, ⟨j', hij, hs, hk⟩, hl⟩
    have ⟨hl', ha⟩ := step_of_getElem? hs
    obtain rfl : j' = j := by omega
    exact ⟨hij, ha, hk⟩
  case mpr =>
    rintro ⟨hij, ha, hk⟩
    have ⟨s, hs, hl⟩ := exists_step_of_isStepAt ha
    exact ⟨s, ⟨j, hij, hs, hk⟩, hl⟩

theorem isSetupOf_of_mem (hi : kindAt? ls i = some .setup)
    (hs : s ∈ stepsAhead ((classify ls).drop (i + 1))) (hl : s.line = j + 1) : IsSetupOf ls i j := by
  have ⟨hij, _, hk⟩ := exists_mem_stepsAhead_iff.mp ⟨s, hs, hl⟩
  exact ⟨hij, hi, fun k hkj hik h => hk k hkj hik ⟨_, h, rfl⟩⟩

end Setup

section Attached

variable {source : Text} {i j j' : Nat} {u : Suite} {s : Step}

theorem steps_of_case {c : Case} (hu : u ∈ (read source).suites) (hc : c ∈ u.cases)
    (hl : c.line = i + 1) :
    c.steps = stepsAhead ((classify (Text.lines source)).drop (i + 1)) := by
  have ⟨_, _, ht, hn, hs⟩ := exists_suffix_of_case (mem_suites_read.mp hu) hc
  obtain ⟨i', rfl, _, rfl⟩ := exists_place_of_suffix ht
  obtain rfl : i' = i := by omega
  exact hs

theorem steps_of_background {steps : List Step} (hu : u ∈ (read source).suites)
    (hb : u.background = some steps) (hs : s ∈ steps) (hi : IsSetupOf (Text.lines source) i j)
    (hl : s.line = j + 1) :
    steps = stepsAhead ((classify (Text.lines source)).drop (i + 1)) := by
  have ⟨_, _, ht, he⟩ := exists_suffix_of_background (mem_suites_read.mp hu) hb
  obtain ⟨i', rfl, hk, rfl⟩ := exists_place_of_suffix ht
  obtain rfl : i = i' := hi.inj (isSetupOf_of_mem hk (he ▸ hs) hl)
  exact he

theorem Attached.ahead (h : Attached source i j) :
    ∃ s ∈ stepsAhead ((classify (Text.lines source)).drop (i + 1)), s.line = j + 1 := by
  cases h
  case case u c s hu hc hs hi hj          => exact ⟨s, steps_of_case hu hc hi ▸ hs, hj⟩
  case background u steps s hu hb hs hi hj => exact ⟨s, steps_of_background hu hb hs hi hj ▸ hs, hj⟩

theorem Attached.of_ahead (h : Attached source i j')
    (hs : s ∈ stepsAhead ((classify (Text.lines source)).drop (i + 1))) (hj : s.line = j + 1) :
    Attached source i j := by
  cases h
  case case u c _ hu hc _ hi _ => exact .case hu hc (steps_of_case hu hc hi ▸ hs) hi hj
  case background u steps _ hu hb hs' hi hj' =>
    have he := steps_of_background hu hb hs' hi hj'
    exact .background hu hb (he ▸ hs) (isSetupOf_of_mem hi.setup hs hj) hj

-- A block that has steps has all those up to the next boundary.
theorem Attached.iff (h : Attached source i j') :
    Attached source i j ↔ i < j ∧ IsStepAt (Text.lines source) j ∧
      ∀ k < j, i < k → ¬IsBoundaryAt (Text.lines source) k := by
  rw [← exists_mem_stepsAhead_iff]
  exact ⟨Attached.ahead, fun ⟨_, hs, hj⟩ => h.of_ahead hs hj⟩

end Attached

-- All steps that a block gets stand inside exactly if, unless it gets none, a boundary comes before
-- every step behind its end.
theorem keepsToBlock_iff (source : Text) (i : Nat) :
    KeepsToBlock source i ↔ (OpensBlock (Text.lines source) i → (∃ j, Attached source i j) →
      ∀ e j, EndsBlock (Text.lines source) i e → IsStepAt (Text.lines source) j → e < j →
        ∃ k < j, i < k ∧ IsBoundaryAt (Text.lines source) k) := by
  constructor
  case mp =>
    intro h ho ⟨_, ha⟩ e j he hs hj
    by_contra hk
    have hi : i < j := Nat.lt_of_le_of_lt he.le hj
    have ha : Attached source i j := ha.iff.mpr ⟨hi, hs, fun k hkj hik hb => hk ⟨k, hkj, hik, hb⟩⟩
    exact not_standsInside_of_endsBlock he hj (h ho j ha)
  case mpr =>
    intro h ho j ha
    by_contra hn
    have ⟨e, hj, he⟩ := exists_endsBlock hn
    have ⟨_, hs, hk⟩ := ha.iff.mp ha
    have ⟨k, hkj, hik, hb⟩ := h ho ⟨j, ha⟩ e j he hs hj
    exact hk k hkj hik hb

-- A hook behind a case whose closing line holds a comment, and a hook behind a setup that closes
-- above depth zero.
def hooked : Text := Text.unlines [
  "test.describe('A', () => \x7b\x7d);".toList,
  "test('x', async () => \x7b".toList,
  "\x7d); // x".toList,
  "test.afterEach(async () => \x7b".toList,
  "  await test.step('clear', async () => \x7b\x7d);".toList,
  "\x7d);".toList,
  "test.describe('B', () => \x7b".toList,
  "  test.beforeEach(async () => \x7b".toList,
  "  \x7d);".toList,
  "  test.afterEach(async () => \x7b".toList,
  "    await test.step('leave', async () => \x7b\x7d);".toList,
  "  \x7d);".toList,
  "  test('y', async () => \x7b".toList,
  "  \x7d);".toList,
  "\x7d);".toList]

-- The steps of both hooks are attached to what stands before them.
theorem attached_hooked : Attached hooked 1 4 ∧ Attached hooked 7 10 := by
  constructor
  case left =>
    have hc : ∃ u ∈ (read hooked).suites, ∃ c ∈ u.cases, ∃ s ∈ c.steps, c.line = 2 ∧ s.line = 5 := by
      decide +kernel
    obtain ⟨u, hu, c, hc, s, hs, hl, hl'⟩ := hc
    exact .case hu hc hs hl hl'
  case right =>
    have hb : ∃ u ∈ (read hooked).suites, ∃ steps ∈ u.background, ∃ s ∈ steps, s.line = 11 := by
      decide +kernel
    have hi : IsSetupOf (Text.lines hooked) 7 10 := ⟨by decide, by decide +kernel, by decide +kernel⟩
    obtain ⟨u, hu, steps, hb, s, hs, hl⟩ := hb
    exact .background hu hb hs hi hl

theorem hooked_not_keepsToBlock : ¬KeepsToBlock hooked 1 ∧ ¬KeepsToBlock hooked 7 := by
  have ⟨hc, hb⟩ := attached_hooked
  constructor
  case left =>
    have ho : OpensBlock (Text.lines hooked) 1 := by unfold OpensBlock; decide +kernel
    exact fun h => absurd (h ho 4 hc 3) (by decide +kernel)
  case right =>
    have ho : OpensBlock (Text.lines hooked) 7 := by unfold OpensBlock; decide +kernel
    exact fun h => absurd (h ho 10 hb 9) (by decide +kernel)

end GherkinView.Script
