import GherkinView.Proofs.Script.Segment
import GherkinView.Proofs.Text.Lines

namespace GherkinView.Script

section Down

variable (n : Nat)

def Step.down (s : Step) : Step := { s with line := s.line + n }

def Case.down (c : Case) : Case := { c with line := c.line + n, steps := c.steps.map (Step.down n) }

def Suite.down (s : Suite) : Suite :=
  { s with
    line := s.line + n
    cases := s.cases.map (Case.down n)
    background := s.background.map (·.map (Step.down n)) }

def Line.down (l : Line) : Line := { l with number := l.number + n }

def Collector.down : Collector → Collector
  | nothing => nothing
  | setup steps => setup (steps.map (Step.down n))
  | case name line steps => case name (line + n) (steps.map (Step.down n))

def Reader.down (r : Reader) : Reader :=
  ⟨r.done.map (Suite.down n), r.suite.map (Suite.down n), r.collector.down n⟩

end Down

variable {n : Nat}

theorem Collector.down_add (s : Step) (c : Collector) : (c.add s).down n = (c.down n).add (s.down n) := by
  cases c <;> simp [add, down]

theorem Collector.down_handOverCase (s : Suite) (c : Collector) :
    (c.handOverCase s).down n = (c.down n).handOverCase (s.down n) := by
  cases c <;> simp [handOverCase, down, Suite.down, Case.down]

theorem Collector.down_handOver (s : Suite) (c : Collector) :
    (c.handOver s).down n = (c.down n).handOver (s.down n) := by
  cases c
  case setup steps => cases steps <;> simp [handOver, down, Suite.down]
  all_goals exact down_handOverCase s _

-- One step of the reader, and all its steps, further down.
theorem Reader.down_step (r : Reader) (l : Line) : (r.step l).down n = (r.down n).step (l.down n) := by
  have ⟨done, suite, collector⟩ := r
  have ⟨number, kind⟩ := l
  cases kind
  case unlabelled | other => rfl
  case suite              => simp [step, down, Line.down, Collector.down, Suite.down, Option.toList_map]
  case step               => simp [step, down, Line.down, Collector.down_add, Step.down]
  case setup | case | close =>
    cases suite <;> simp [step, down, Line.down, Collector.down_handOverCase,
      Collector.down_handOver, Collector.down]

theorem Reader.down_foldl (r : Reader) (ls : List Line) :
    (ls.foldl step r).down n = (ls.map (Line.down n)).foldl step (r.down n) := by
  induction ls generalizing r
  case nil => rfl
  case cons l ls hi => rw [List.foldl_cons, hi, down_step, List.map_cons, List.foldl_cons]

theorem suites_ofLines_down (ls : List Line) :
    (ofLines (ls.map (Line.down n))).suites = (ofLines ls).suites.map (Suite.down n) := by
  have h : (ls.foldl Reader.step {}).down n = (ls.map (Line.down n)).foldl Reader.step {} :=
    Reader.down_foldl {} ls
  rw [ofLines, ← h]
  simp [ofLines, Reader.suites, Reader.down, Option.toList_map]

-- A suite line takes over from whatever has been left half open.
theorem suites_ofLines_append (before after : List Line) (number : Nat) (name : Text) :
    (ofLines (before ++ ⟨number, .suite name⟩ :: after)).suites =
      (ofLines before).suites ++ (ofLines (⟨number, .suite name⟩ :: after)).suites := by
  rw [suites_ofLines (⟨number, .suite name⟩ :: after), ofLines, ofLines, List.foldl_append,
    suites_foldl]
  simp only [Suite.finish_suite, Option.map_id', Reader.suites]

namespace Block

-- Counted on from `d`, the braces balance at the end of some line.
def Closes (d : Option Int) (ls : List Text) : Prop :=
  ∃ n ≤ ls.length, ∃ k ∈ (ls.take n).foldl depthAfter d, k ≤ 0

instance (d : Option Int) (ls : List Text) : Decidable (Closes d ls) :=
  inferInstanceAs (Decidable (∃ n ≤ ls.length, ∃ k ∈ (ls.take n).foldl depthAfter d, k ≤ 0))

-- Lines behind the one that closes a block are not taken.
theorem takeLines_append {ls : List Text} {d : Option Int} (hd : ∀ k ∈ d, 0 < k) (h : Closes d ls)
    (more : List Text) : takeLines d (ls ++ more) = takeLines d ls := by
  induction ls generalizing d
  case nil =>
    have ⟨n, _, k, hk, h0⟩ := h
    have := hd k (by simpa using hk)
    omega
  case cons line rest hi =>
    obtain ⟨n, hn, k, hk, h0⟩ := h
    cases n
    case zero =>
      have := hd k hk
      omega
    case succ n =>
      have hn : n ≤ rest.length := Nat.le_of_succ_le_succ hn
      rw [List.take_succ_cons, List.foldl_cons] at hk
      rw [List.cons_append, takeLines, takeLines]
      cases hl : depthAfter d line
      case none =>
        rw [hl] at hk
        exact hi nofun ⟨n, hn, k, hk, h0⟩
      case some j =>
        by_cases hj : j ≤ 0
        case pos => simp [hj]
        case neg =>
          rw [hl] at hk
          have hr := hi (d := some j) (by simpa using hj) ⟨n, hn, k, hk, h0⟩
          simp [hj, hr]

end Block

theorem captureBlock_append {ls : List Text} (h : Block.Closes none ls) (more : List Text) :
    captureBlock (ls ++ more) = captureBlock ls := by
  rw [captureBlock, captureBlock, Block.takeLines_append (by simp) h]

-- The lines behind have no part in what a line is, unless it is a step whose block is still open.
theorem LineKind.of_append {depth : Int} {line : Text} {ls : List Text}
    (h : ∀ label code, of depth line ls = .step label code → Block.Closes none ls)
    (more : List Text) : of depth line (ls ++ more) = of depth line ls := by
  unfold of at h ⊢
  simp only
  split_ifs <;> try rfl
  split <;> try rfl
  case _ label hl =>
    rw [captureBlock_append (h label (captureBlock ls) ?_)]
    simp [*]

section Depth

variable {as bs : List Text}

theorem depthBehind_append_left {n : Nat} (h : n ≤ as.length) :
    depthBehind (as ++ bs) n = depthBehind as n := by
  induction as generalizing n
  case nil => simp_all
  case cons l as hi =>
    cases n
    case zero   => simp
    case succ n => simp [hi (Nat.le_of_succ_le_succ h)]

theorem depthBehind_append_right (n : Nat) :
    depthBehind (as ++ bs) (as.length + n) = depthBehind as as.length + depthBehind bs n := by
  induction as
  case nil => simp
  case cons l as hi =>
    rw [List.cons_append, List.length_cons, Nat.add_right_comm, depthBehind_cons_succ, hi,
      depthBehind_cons_succ, Int.add_assoc]

end Depth

-- The block that opens behind a step is closed, for every step.
def ClosesSteps (ls : List Text) : Prop :=
  ∀ i (h : i < ls.length), (lineAt ls i ls[i]).step?.isSome → Block.Closes none (ls.drop i)

instance (ls : List Text) : Decidable (ClosesSteps ls) :=
  inferInstanceAs (Decidable
    (∀ i (h : i < ls.length), (lineAt ls i ls[i]).step?.isSome → Block.Closes none (ls.drop i)))

section Append

variable {as : List Text}

theorem lineAt_append_left (hs : ClosesSteps as) (bs : List Text) {i : Nat} (h : i < as.length) :
    lineAt (as ++ bs) i as[i] = lineAt as i as[i] := by
  have hk label code (hk : (lineAt as i as[i]).kind = .step label code) :=
    hs i h (by simp [Line.step?, hk])
  rw [lineAt, depthBehind_append_left h, List.drop_append_of_le_length h.le, LineKind.of_append hk]
  rfl

theorem lineAt_append_right (hd : depthBehind as as.length = 0) (bs : List Text) (i : Nat)
    (line : Text) :
    lineAt (as ++ bs) (as.length + i) line = (lineAt bs i line).down as.length := by
  rw [lineAt, Nat.add_assoc, depthBehind_append_right, hd, Int.zero_add,
    List.drop_length_add_append]
  simp [lineAt, Line.down, Nat.add_comm, Nat.add_left_comm]

theorem classify_append (hd : depthBehind as as.length = 0) (hs : ClosesSteps as) (bs : List Text) :
    classify (as ++ bs) = classify as ++ (classify bs).map (Line.down as.length) := by
  rw [classify, List.mapIdx_append]
  have ha : as.mapIdx (lineAt (as ++ bs)) = classify as := by
    refine List.ext_getElem (by simp [classify]) fun i hi _ => ?_
    rw [List.length_mapIdx] at hi
    simp [classify, lineAt_append_left hs bs hi]
  have hb : (bs.mapIdx fun i => lineAt (as ++ bs) (i + as.length)) =
      (classify bs).map (Line.down as.length) := by
    refine List.ext_getElem (by simp [classify]) fun i _ _ => ?_
    simp [classify, Nat.add_comm i, lineAt_append_right hd]
  rw [ha, hb]

end Append

-- The first line opens a suite.
def OpensSuite (ls : List Text) : Prop :=
  ∃ line ∈ ls.head?, Marker.isSuite (Text.trim line) = true

instance (ls : List Text) : Decidable (OpensSuite ls) :=
  inferInstanceAs (Decidable (∃ line ∈ ls.head?, Marker.isSuite (Text.trim line) = true))

theorem classify_of_opensSuite {ls : List Text} (h : OpensSuite ls) :
    ∃ name rest, classify ls = ⟨1, .suite name⟩ :: rest := by
  have ⟨line, hl, hm⟩ := h
  have ⟨rest, he⟩ := List.head?_eq_some_iff.mp hl
  have hk : lineAt (line :: rest) 0 line =
      ⟨1, .suite ((labelOf? (Text.trim line)).getD unnamedSuite)⟩ := by
    simp [lineAt, LineKind.of, hm]
  rw [he, classify, List.mapIdx_cons, hk]
  exact ⟨_, _, rfl⟩

-- The suites of two scripts, one behind the other, are the suites of each by itself.
theorem suites_read_append {a b : Text}
    (hd : depthBehind (Text.lines a) (Text.lines a).length = 0) (hs : ClosesSteps (Text.lines a))
    (hb : OpensSuite (Text.lines b)) :
    (read (a ++ '\n' :: b)).suites =
      (read a).suites ++ (read b).suites.map (Suite.down (Text.lines a).length) := by
  have ⟨name, rest, hc⟩ := classify_of_opensSuite hb
  simp only [read_eq_ofLines, ← suites_ofLines_down]
  rw [Text.lines_append, classify_append hd hs, hc, List.map_cons]
  exact suites_ofLines_append _ _ _ _

-- A case that nothing hands over, and a suite with a case behind it.
def halfOpen : Text := Text.unlines [
  "test.describe('A', () => \x7b".toList,
  "  test('x', async () => \x7b".toList,
  "    await test.step('open', async () => \x7b \x7d);".toList,
  "  \x7d);".toList,
  "\x7d); // A".toList]

def following : Text := Text.unlines [
  "test.describe('B', () => \x7b".toList,
  "  test('y', async () => \x7b".toList,
  "    await test.step('close', async () => \x7b \x7d);".toList,
  "  \x7d);".toList,
  "\x7d);".toList]

theorem suites_read_halfOpen :
    depthBehind (Text.lines halfOpen) (Text.lines halfOpen).length = 0 ∧
      ClosesSteps (Text.lines halfOpen) ∧ OpensSuite (Text.lines following) ∧
      (read (halfOpen ++ '\n' :: following)).suites =
        (read halfOpen).suites ++ (read following).suites.map (Suite.down 5) := by
  have hd : depthBehind (Text.lines halfOpen) (Text.lines halfOpen).length = 0 := by decide +kernel
  have hs : ClosesSteps (Text.lines halfOpen) := by decide +kernel
  have hb : OpensSuite (Text.lines following) := by decide +kernel
  have hl : (Text.lines halfOpen).length = 5 := by decide +kernel
  exact ⟨hd, hs, hb, hl ▸ suites_read_append hd hs hb⟩

end GherkinView.Script
