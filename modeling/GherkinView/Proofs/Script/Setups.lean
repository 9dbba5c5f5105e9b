import Mathlib.Data.List.Nodup
import Mathlib.Data.List.Sort
import GherkinView.Proofs.Script.Attachment
import GherkinView.Proofs.Script.Order

open scoped List

namespace GherkinView.Script

def IsSuiteAt (ls : List Text) (i : Nat) : Prop :=
  ∃ kind ∈ kindAt? ls i, kind.isSuite = true

-- The suite line that a line stands behind.
@[mk_iff]
structure IsSuiteOf (ls : List Text) (k i : Nat) : Prop where
  before : k < i
  suite : IsSuiteAt ls k
  nearest : ∀ m < i, k < m → ¬IsSuiteAt ls m

-- Line `j` is a labelled step in the block that a setup line of suite line `k` opens.
@[mk_iff]
structure IsSetupStep (ls : List Text) (k j : Nat) : Prop where
  step : IsStepAt ls j
  inside : ∃ i < j, IsSuiteOf ls k i ∧ kindAt? ls i = some .setup ∧ OpensBlock ls i ∧ StandsInside ls i j

-- The steps in the setups of each suite are in its background, each once and in their order.
def KeepsSetups (source : Text) : Prop :=
  ∀ u ∈ (read source).suites, ∀ k : Nat, u.line = k + 1 →
    (∀ j : Nat, IsSetupStep (Text.lines source) k j →
      (stepLines (u.background.getD [])).count (j + 1 : Int) = 1) ∧
    ∀ j j' : Nat, IsSetupStep (Text.lines source) k j → IsSetupStep (Text.lines source) k j' → j < j' →
      [(j + 1 : Int), (j' + 1 : Int)] <+ stepLines (u.background.getD [])

-- Behind setup line `i` come steps and then, as the next boundary, a case or a close line `b`.
structure GivesBackground (ls : List Text) (i b : Nat) : Prop where
  setup : kindAt? ls i = some .setup
  before : i < b
  ends : ∃ kind ∈ kindAt? ls b, kind.isCaseOrClose = true
  nearest : ∀ m < b, i < m → ¬IsBoundaryAt ls m
  step : ∃ j < b, i < j ∧ IsStepAt ls j

-- Of the setup lines of suite line `k` that give a background, line `i` is the last one.
structure IsBackgroundOf (ls : List Text) (k i b : Nat) : Prop where
  gives : GivesBackground ls i b
  suite : IsSuiteOf ls k i
  last : ∀ i' b', i < i' → GivesBackground ls i' b' → ¬IsSuiteOf ls k i'

section Segment

variable {ms : List Line} {p : Nat}

-- What comes last of those on a range.
theorem getLast?_filterMap_range {α : Type} {f : Nat → Option α} {n : Nat} {a : α} :
    ((List.range n).filterMap f).getLast? = some a ↔
      ∃ p < n, f p = some a ∧ ∀ p' < n, p < p' → f p' = none := by
  induction n
  case zero => simp
  case succ n hi =>
    rw [List.range_succ, List.filterMap_append, List.getLast?_append]
    cases hn : f n
    case some a' =>
      simp only [List.filterMap_cons, hn, List.filterMap_nil, List.getLast?_singleton, Option.some_or]
      constructor
      case mp =>
        intro h
        exact ⟨n, Nat.lt_succ_self n, hn.trans h, fun p' hp hl => by omega⟩
      case mpr =>
        rintro ⟨p, hp, hf, hl⟩
        obtain hp | rfl := Nat.lt_succ_iff_lt_or_eq.mp hp
        · exact absurd (hl n (Nat.lt_succ_self n) hp) (by simp [hn])
        · exact hn.symm.trans hf
    case none =>
      simp only [List.filterMap_cons, hn, List.filterMap_nil, List.getLast?_nil, Option.none_or, hi]
      constructor
      case mp =>
        rintro ⟨p, hp, hf, hl⟩
        refine ⟨p, Nat.lt_succ_of_lt hp, hf, fun p' hp' hl' => ?_⟩
        obtain hp' | rfl := Nat.lt_succ_iff_lt_or_eq.mp hp'
        · exact hl p' hp' hl'
        · exact hn
      case mpr =>
        rintro ⟨p, hp, hf, hl⟩
        obtain hp | rfl := Nat.lt_succ_iff_lt_or_eq.mp hp
        · exact ⟨p, hp, hf, fun p' hp' => hl p' (Nat.lt_succ_of_lt hp')⟩
        · simp [hn] at hf

-- How many lines there are up to the next suite line.
def segmentLength (ms : List Line) : Nat :=
  (ms.takeWhile (!·.kind.isSuite)).length

theorem segment_eq_map (ms : List Line) : segment ms = (List.range (segmentLength ms)).map ms.drop := by
  induction ms
  case nil => rfl
  case cons l ms hi =>
    rw [segment_cons, segmentLength, List.takeWhile_cons]
    cases l.kind.isSuite
    case true  => rfl
    case false =>
      simp only [Bool.false_eq_true, Bool.not_false, if_true, if_false, List.length_cons,
        List.range_succ_eq_map, List.map_cons, List.map_map, hi]
      rfl

theorem lt_segmentLength_iff :
    p < segmentLength ms ↔ p < ms.length ∧ ∀ m ≤ p, ∀ l ∈ ms[m]?, l.kind.isSuite = false := by
  induction ms generalizing p
  case nil => simp [segmentLength]
  case cons l ms hi =>
    rw [segmentLength, List.takeWhile_cons]
    cases h : l.kind.isSuite
    case true =>
      refine iff_of_false (Nat.not_lt_zero p) fun ⟨_, hm⟩ => ?_
      exact Bool.false_ne_true ((hm 0 (Nat.zero_le p) l rfl).symm.trans h)
    case false =>
      cases p
      case zero => simp [h]
      case succ p =>
        rw [Bool.not_false, if_pos rfl, List.length_cons, List.length_cons, Nat.succ_lt_succ_iff,
          Nat.succ_lt_succ_iff, ← segmentLength, hi]
        refine and_congr_right fun _ => ⟨fun hm m hmp => ?_, fun hm m hmp => hm (m + 1) (by omega)⟩
        cases m
        case zero   => simpa using h
        case succ m => exact hm m (by omega)

end Segment

section Background

variable {ls : List Text} {k i b j : Nat} {kind : LineKind} {steps : List Step}

theorem drop_of_kindAt? (h : kindAt? ls i = some kind) :
    (classify ls).drop i = ⟨i + 1, kind⟩ :: (classify ls).drop (i + 1) := by
  obtain ⟨l, hl, rfl⟩ := Option.map_eq_some_iff.mp h
  obtain ⟨hi, rfl⟩ := List.getElem?_eq_some_iff.mp hl
  rw [List.drop_eq_getElem_cons hi, ← number_of_getElem? hl]

theorem isBoundary_of_isCaseOrClose (h : kind.isCaseOrClose = true) : kind.isBoundary = true := by
  cases kind <;> first | rfl | contradiction

-- The next boundary, by its place.
theorem boundaryAhead?_eq_some_iff :
    boundaryAhead? ((classify ls).drop (i + 1)) = some kind ↔ ∃ b, i < b ∧ kindAt? ls b = some kind ∧
      kind.isBoundary = true ∧ ∀ m < b, i < m → ¬IsBoundaryAt ls m := by
  have hk (p : Nat) : ((classify ls).drop (i + 1))[p]?.map Line.kind = kindAt? ls (i + 1 + p) := by
    rw [List.getElem?_drop, kindAt?]
  rw [boundaryAhead?, List.find?_eq_some_iff_getElem]
  constructor
  case mp =>
    rintro ⟨hb, p, hp, he, hn⟩
    refine ⟨i + 1 + p, by omega, ?_, hb, ?_⟩
    case refine_1 => rw [← hk, ← List.getElem?_map, List.getElem?_eq_getElem hp, he]
    case refine_2 =>
      rintro m hm hi ⟨kind', hk', hb'⟩
      obtain ⟨q, rfl⟩ := Nat.exists_eq_add_of_le hi
      have hq : q < p := by omega
      rw [Option.mem_def, ← hk, ← List.getElem?_map, List.getElem?_eq_getElem (hq.trans hp)] at hk'
      have := hn q hq
      rw [Option.some.inj hk', hb'] at this
      contradiction
  case mpr =>
    rintro ⟨b, hi, he, hb, hn⟩
    obtain ⟨p, rfl⟩ := Nat.exists_eq_add_of_le hi
    rw [← hk, ← List.getElem?_map] at he
    obtain ⟨hp, he⟩ := List.getElem?_eq_some_iff.mp he
    refine ⟨hb, p, hp, he, fun q hq => ?_⟩
    rw [Bool.not_eq_true']
    by_contra hc
    refine hn (i + 1 + q) (by omega) (by omega) ⟨_, ?_, Bool.not_eq_false _ ▸ hc⟩
    rw [Option.mem_def, ← hk, ← List.getElem?_map, List.getElem?_eq_getElem (hq.trans hp)]

theorem GivesBackground.isBoundaryAt (h : GivesBackground ls i b) : IsBoundaryAt ls b :=
  have ⟨kind, hk, hc⟩ := h.ends
  ⟨kind, hk, isBoundary_of_isCaseOrClose hc⟩

theorem not_isBoundaryAt_of_isStepAt (h : IsStepAt ls j) : ¬IsBoundaryAt ls j := by
  rintro ⟨kind, hk, hb⟩
  obtain ⟨label, code, hs⟩ := h
  rw [Option.mem_def, hs] at hk
  cases hk
  contradiction

-- The steps that a setup line gives stand before the next boundary.
theorem GivesBackground.lt_iff (h : GivesBackground ls i b) (hj : IsStepAt ls j) :
    (∀ m < j, i < m → ¬IsBoundaryAt ls m) ↔ j < b := by
  constructor
  case mp =>
    intro hn
    by_contra hb
    obtain hb | rfl := Nat.lt_or_eq_of_le (Nat.le_of_not_lt hb)
    · exact hn b hb h.before h.isBoundaryAt
    · exact not_isBoundaryAt_of_isStepAt hj h.isBoundaryAt
  case mpr => exact fun hb m hm => h.nearest m (hm.trans hb)

theorem exists_givesBackground_iff (hi : kindAt? ls i = some .setup) : (∃ b, GivesBackground ls i b) ↔
    (boundaryAhead? ((classify ls).drop (i + 1))).any (·.isCaseOrClose) = true ∧
      stepsAhead ((classify ls).drop (i + 1)) ≠ [] := by
  constructor
  case mp =>
    rintro ⟨b, h⟩
    obtain ⟨kind, hk, hc⟩ := h.ends
    obtain ⟨j, hb, hj, hs⟩ := h.step
    have ha := boundaryAhead?_eq_some_iff.mpr ⟨b, h.before, hk, isBoundary_of_isCaseOrClose hc, h.nearest⟩
    have ⟨s, hm, _⟩ := exists_mem_stepsAhead_iff.mpr ⟨hj, hs, (h.lt_iff hs).mpr hb⟩
    exact ⟨by rw [ha]; exact hc, List.ne_nil_of_mem hm⟩
  case mpr =>
    rintro ⟨ha, hs⟩
    obtain ⟨kind, ha, hc⟩ := (Option.any_eq_true _ _).mp ha
    obtain ⟨b, hb, hk, hd, hn⟩ := boundaryAhead?_eq_some_iff.mp ha
    obtain ⟨s, hs⟩ := List.exists_mem_of_ne_nil _ hs
    obtain ⟨j, hj, hs, hm⟩ := mem_stepsAhead_drop.mp hs
    have hs := (step_of_getElem? hs).right
    refine ⟨b, hi, hb, ⟨kind, hk, hc⟩, hn, j, ?_, hj, hs⟩
    by_contra hl
    obtain hl | rfl := Nat.lt_or_eq_of_le (Nat.le_of_not_lt hl)
    · exact hm b hl hb ⟨kind, hk, hd⟩
    · exact not_isBoundaryAt_of_isStepAt hs ⟨kind, hk, hd⟩

-- What a setup line gives is the steps up to the next boundary.
theorem backgroundFrom?_eq_some_iff : backgroundFrom? ((classify ls).drop i) = some steps ↔
    (∃ b, GivesBackground ls i b) ∧ steps = stepsAhead ((classify ls).drop (i + 1)) := by
  by_cases hi : kindAt? ls i = some .setup
  case pos =>
    rw [exists_givesBackground_iff hi, drop_of_kindAt? hi, backgroundFrom?]
    simp only [Option.ite_none_right_eq_some, Bool.and_eq_true, Bool.not_eq_true', Option.some.injEq,
      List.isEmpty_eq_false_iff]
    exact and_congr_right fun _ => eq_comm
  case neg =>
    constructor
    case mpr =>
      rintro ⟨⟨b, h⟩, _⟩
      exact absurd h.setup hi
    case mp =>
      intro h
      unfold backgroundFrom? at h
      split at h
      case h_2 => contradiction
      case h_1 number rest he =>
        have hl : (classify ls)[i]? = some ⟨number, .setup⟩ := by
          rw [← List.head?_drop, he, List.head?_cons]
        exact absurd (by rw [kindAt?, hl, Option.map_some]) hi

-- The segment behind a suite line has the setup lines that stand behind that suite.
theorem lt_segmentLength_drop_iff {p : Nat} (hk : IsSuiteAt ls k) (hs : kindAt? ls (k + 1 + p) = some .setup) :
    p < segmentLength ((classify ls).drop (k + 1)) ↔ IsSuiteOf ls k (k + 1 + p) := by
  have hn (m : Nat) : ¬IsSuiteAt ls m ↔ ∀ l ∈ (classify ls)[m]?, l.kind.isSuite = false := by
    simp [IsSuiteAt, kindAt?]
  rw [lt_segmentLength_iff, List.length_drop]
  simp only [List.getElem?_drop]
  constructor
  case mp =>
    rintro ⟨_, hm⟩
    refine ⟨by omega, hk, fun m hmp hkm => ?_⟩
    obtain ⟨q, rfl⟩ := Nat.exists_eq_add_of_le hkm
    exact (hn _).mpr (hm q (by omega))
  case mpr =>
    intro ho
    obtain ⟨l, hl, hk'⟩ := Option.map_eq_some_iff.mp hs
    have hp := (List.getElem?_eq_some_iff.mp hl).fst
    refine ⟨by omega, fun m hm => ?_⟩
    obtain hm | rfl := Nat.lt_or_eq_of_le hm
    · exact (hn _).mp (ho.nearest _ (by omega) (by omega))
    · simp [hl, hk', LineKind.isSuite]

variable {source : Text} {u : Suite}

theorem isSuiteAt_of_mem (hu : u ∈ (read source).suites) (hl : u.line = k + 1) :
    IsSuiteAt (Text.lines source) k := by
  have ⟨_, _, ht, hn, _⟩ := exists_suffix_of_suite (mem_suites_read.mp hu)
  obtain ⟨k', rfl, hk, _⟩ := exists_place_of_suffix ht
  obtain rfl : k' = k := by omega
  exact ⟨_, hk, rfl⟩

theorem exists_suite_of_isSuiteAt (h : IsSuiteAt (Text.lines source) k) :
    ∃ u ∈ (read source).suites, u.line = k + 1 := by
  obtain ⟨kind, hk, hs⟩ := h
  have hd := drop_of_kindAt? hk
  cases kind <;> try contradiction
  case suite name =>
    refine ⟨_, mem_suites_read.mpr (List.mem_filterMap.mpr ⟨_, ?_, congrArg suiteFrom? hd⟩), rfl⟩
    exact (List.mem_tails _ _).mpr (List.drop_suffix k _)

theorem background_of_mem (hu : u ∈ (read source).suites) (hl : u.line = k + 1) : u.background =
    ((segment ((classify (Text.lines source)).drop (k + 1))).filterMap backgroundFrom?).getLast? := by
  have ⟨_, _, ht, hn, _, hb⟩ := exists_suffix_of_suite (mem_suites_read.mp hu)
  obtain ⟨k', rfl, _, rfl⟩ := exists_place_of_suffix ht
  obtain rfl : k' = k := by omega
  exact hb

theorem background_eq_some_iff (hu : u ∈ (read source).suites) (hl : u.line = k + 1) :
    u.background = some steps ↔ ∃ i b, IsBackgroundOf (Text.lines source) k i b ∧
      steps = stepsAhead ((classify (Text.lines source)).drop (i + 1)) := by
  have hk := isSuiteAt_of_mem hu hl
  rw [background_of_mem hu hl, segment_eq_map, List.filterMap_map, getLast?_filterMap_range]
  simp only [Function.comp_apply, List.drop_drop]
  constructor
  case mp =>
    rintro ⟨p, hp, hs, hn⟩
    obtain ⟨⟨b, hb⟩, rfl⟩ := backgroundFrom?_eq_some_iff.mp hs
    refine ⟨k + 1 + p, b, ⟨hb, (lt_segmentLength_drop_iff hk hb.setup).mp hp, ?_⟩, rfl⟩
    intro i' b' hi hb' ho
    obtain ⟨p', rfl⟩ := Nat.exists_eq_add_of_le ho.before
    have hs := backgroundFrom?_eq_some_iff.mpr ⟨⟨b', hb'⟩, rfl⟩
    rw [hn p' ((lt_segmentLength_drop_iff hk hb'.setup).mpr ho) (by omega)] at hs
    contradiction
  case mpr =>
    rintro ⟨i, b, ⟨hb, ho, hn⟩, rfl⟩
    obtain ⟨p, rfl⟩ := Nat.exists_eq_add_of_le ho.before
    refine ⟨p, (lt_segmentLength_drop_iff hk hb.setup).mpr ho,
      backgroundFrom?_eq_some_iff.mpr ⟨⟨b, hb⟩, rfl⟩, fun p' hp hpp => ?_⟩
    by_contra hc
    obtain ⟨steps, hs⟩ := Option.ne_none_iff_exists'.mp hc
    obtain ⟨⟨b', hb'⟩, _⟩ := backgroundFrom?_eq_some_iff.mp hs
    exact hn _ b' (by omega) hb' ((lt_segmentLength_drop_iff hk hb'.setup).mp hp)

theorem mem_background_iff (hu : u ∈ (read source).suites) (hl : u.line = k + 1) :
    (j + 1 : Int) ∈ stepLines (u.background.getD []) ↔ IsStepAt (Text.lines source) j ∧
      ∃ i b, IsBackgroundOf (Text.lines source) k i b ∧ i < j ∧ j < b := by
  constructor
  case mp =>
    intro hm
    cases hb : u.background
    case none => simp [hb, stepLines] at hm
    case some steps =>
      rw [hb, Option.getD_some] at hm
      obtain ⟨i, b, hi, rfl⟩ := (background_eq_some_iff hu hl).mp hb
      have ⟨hij, hs, hn⟩ := exists_mem_stepsAhead_iff.mp (List.mem_map.mp hm)
      exact ⟨hs, i, b, hi, hij, (hi.gives.lt_iff hs).mp hn⟩
  case mpr =>
    rintro ⟨hs, i, b, hi, hij, hjb⟩
    rw [(background_eq_some_iff hu hl).mpr ⟨i, b, hi, rfl⟩, Option.getD_some]
    exact List.mem_map.mpr (exists_mem_stepsAhead_iff.mpr ⟨hij, hs, (hi.gives.lt_iff hs).mpr hjb⟩)

theorem pairwise_background (hu : u ∈ (read source).suites) :
    (stepLines (u.background.getD [])).Pairwise (· < ·) := by
  have ⟨ns, hs, ht⟩ := takes_of_mem_segmented (pairwise_numbers_classify _) (mem_suites_read.mp hu)
  cases hb : u.background
  case none       => exact .nil
  case some steps => exact (List.pairwise_cons.mp hs).right.sublist (ht.background steps hb)

end Background

-- In an increasing list, what is less comes first.
theorem pair_sublist {ns : List Int} {a b : Int} (hs : ns.Pairwise (· < ·)) (ha : a ∈ ns) (hb : b ∈ ns)
    (hab : a < b) : [a, b] <+ ns := by
  have hp : [a, b].Pairwise (· < ·) := List.pairwise_pair.mpr hab
  have hn : [a, b].Nodup := hp.imp Int.ne_of_lt
  refine List.sublist_of_subperm_of_pairwise (hn.subperm ?_) (hp.imp Int.le_of_lt) (hs.imp Int.le_of_lt)
  simp [ha, hb]

-- A script keeps its setups exactly if each of their steps stands in what its suite takes as background.
theorem keepsSetups_iff (source : Text) :
    KeepsSetups source ↔ ∀ k j, IsSetupStep (Text.lines source) k j →
      ∃ i b, IsBackgroundOf (Text.lines source) k i b ∧ i < j ∧ j < b := by
  constructor
  case mp =>
    intro h k j hj
    obtain ⟨i, _, hi, _⟩ := hj.inside
    obtain ⟨u, hu, hl⟩ := exists_suite_of_isSuiteAt hi.suite
    have hc := ((h u hu k hl).left j hj)
    have hm : (j + 1 : Int) ∈ stepLines (u.background.getD []) :=
      List.count_pos_iff.mp (by omega)
    exact ((mem_background_iff hu hl).mp hm).right
  case mpr =>
    intro h u hu k hl
    have hm (j : Nat) (hj : IsSetupStep (Text.lines source) k j) :=
      (mem_background_iff hu hl).mpr ⟨hj.step, h k j hj⟩
    have hs := pairwise_background hu
    constructor
    case left  => exact fun j hj => List.count_eq_one_of_mem (hs.imp Int.ne_of_lt) (hm j hj)
    case right => exact fun j j' hj hj' hjj => pair_sublist hs (hm j hj) (hm j' hj') (by omega)

namespace Setups

variable {ls : List Text} {k i j : Nat}

instance : DecidablePred (IsSuiteAt ls) := fun i =>
  inferInstanceAs (Decidable (∃ kind ∈ kindAt? ls i, kind.isSuite = true))

instance : DecidablePred (IsStepAt ls) := fun j =>
  decidable_of_iff (((classify ls)[j]?.bind Line.step?).isSome = true) <| by
    rw [Option.isSome_iff_exists]
    exact ⟨fun ⟨_, hs⟩ => (step_of_getElem? hs).right,
      fun h => (exists_step_of_isStepAt h).imp fun _ => And.left⟩

instance : Decidable (IsSuiteOf ls k i) :=
  decidable_of_iff' _ (isSuiteOf_iff ls k i)

instance : Decidable (OpensBlock ls i) :=
  inferInstanceAs (Decidable (_ < _))

instance : Decidable (StandsInside ls i j) :=
  inferInstanceAs (Decidable (∀ k ≤ j, i < k → depthBehind ls i < depthBehind ls k))

instance : Decidable (IsSetupStep ls k j) :=
  decidable_of_iff' _ (isSetupStep_iff ls k j)

-- Two setups, one behind the other.
def repeated : Text := Text.unlines [
  "test.describe('A', () => \x7b".toList,
  "  test.beforeEach(async () => \x7b".toList,
  "    await test.step('open', async () => \x7b\x7d);".toList,
  "  \x7d);".toList,
  "  test.beforeEach(async () => \x7b".toList,
  "    await test.step('enter', async () => \x7b\x7d);".toList,
  "  \x7d);".toList,
  "  test('x', async () => \x7b".toList,
  "  \x7d);".toList,
  "\x7d);".toList]

-- A case in between, so that the first one is taken as well, and then replaced.
def replaced : Text := Text.unlines [
  "test.describe('A', () => \x7b".toList,
  "  test.beforeEach(async () => \x7b".toList,
  "    await test.step('open', async () => \x7b\x7d);".toList,
  "  \x7d);".toList,
  "  test('x', async () => \x7b".toList,
  "  \x7d);".toList,
  "  test.beforeEach(async () => \x7b".toList,
  "    await test.step('enter', async () => \x7b\x7d);".toList,
  "  \x7d);".toList,
  "  test('y', async () => \x7b".toList,
  "  \x7d);".toList,
  "\x7d);".toList]

-- A suite opens behind the setup.
def followed : Text := Text.unlines [
  "test.describe('A', () => \x7b".toList,
  "  test.beforeEach(async () => \x7b".toList,
  "    await test.step('open', async () => \x7b\x7d);".toList,
  "  \x7d);".toList,
  "  test.describe('B', () => \x7b".toList,
  "    test('x', async () => \x7b".toList,
  "    \x7d);".toList,
  "  \x7d);".toList,
  "\x7d);".toList]

theorem not_keepsSetups_of_lost {source : Text} (hj : IsSetupStep (Text.lines source) k j)
    (hl : ∃ u ∈ (read source).suites, u.line = k + 1 ∧ (j + 1 : Int) ∉ stepLines (u.background.getD [])) :
    ¬KeepsSetups source := by
  obtain ⟨u, hu, hk, hn⟩ := hl
  intro h
  have := (h u hu k hk).left j hj
  rw [List.count_eq_zero.mpr hn] at this
  contradiction

end Setups

open Setups in
-- Balanced braces are not enough.
theorem balanced_not_keepsSetups :
    (Balanced (Text.lines repeated) ∧ ¬KeepsSetups repeated) ∧
      (Balanced (Text.lines replaced) ∧ ¬KeepsSetups replaced) ∧
        Balanced (Text.lines followed) ∧ ¬KeepsSetups followed := by
  refine ⟨⟨by decide +kernel, ?_⟩, ⟨by decide +kernel, ?_⟩, by decide +kernel, ?_⟩ <;>
    exact not_keepsSetups_of_lost (k := 0) (j := 2) (by decide +kernel) (by decide +kernel)

end GherkinView.Script
