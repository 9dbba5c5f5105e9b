import Mathlib.Data.Nat.Find
import GherkinView.Proofs.Script.Depth
import GherkinView.Proofs.Text.Lines

namespace GherkinView.Script

-- The lines from `i` to `j`, both included.
def linesBetween (ls : List Text) (i j : Nat) : List Text :=
  (ls.drop i).take (j + 1 - i)

def HasBrace (ls : List Text) (i : Nat) : Prop :=
  ∃ line ∈ ls[i]?, '{' ∈ line

-- What stands behind the first opening brace of line `i`, with it, up to the end of line `j`.
def sinceBrace (ls : List Text) (i j : Nat) : Text :=
  (Text.unlines (linesBetween ls i j)).dropWhile (· != '{')

def IsClosedAt (ls : List Text) (i j : Nat) : Prop :=
  (sinceBrace ls i j).count '{' ≤ (sinceBrace ls i j).count '}'

-- Line `i` is the first one from `start` on that has an opening brace.
structure IsFirstBrace (ls : List Text) (start i : Nat) : Prop where
  le : start ≤ i
  brace : HasBrace ls i
  first : ∀ k < i, start ≤ k → ¬HasBrace ls k

-- The block that opens behind `start` goes from line `i` to line `j`.
structure IsExtent (ls : List Text) (start i j : Nat) : Prop where
  opening : IsFirstBrace ls start i
  le : i ≤ j
  lt : j < ls.length
  still : ∀ k < j, i ≤ k → ¬IsClosedAt ls i k
  ends : IsClosedAt ls i j ∨ j + 1 = ls.length

-- A negative index counts from the end; before the first line it stands for that line.
def startLine (ls : List Text) (start : Int) : Nat :=
  (if start < 0 then start + ls.length else start).toNat

theorem netBraces_append (t u : Text) : netBraces (t ++ u) = netBraces t + netBraces u := by
  simp only [netBraces, List.count_append]
  omega

-- Line feeds are no braces.
theorem exists_unlines_cons (l : Text) (ls : List Text) :
    ∃ more, Text.unlines (l :: ls) = l ++ more ∧ netBraces more = netBraces (Text.unlines ls) := by
  by_cases h : ls = []
  case pos => exact ⟨[], by simp [h, Text.unlines], by simp [h, Text.unlines]⟩
  case neg =>
    refine ⟨['\n'] ++ Text.unlines ls, by rw [Text.unlines_cons h, List.append_assoc], ?_⟩
    rw [netBraces_append]
    exact Int.zero_add _

theorem netBraces_unlines_take (ls : List Text) (n : Nat) :
    netBraces (Text.unlines (ls.take n)) = depthBehind ls n := by
  induction ls generalizing n
  case nil => simp [netBraces, Text.unlines, depthBehind]
  case cons l ls hi =>
    cases n
    case zero => simp [netBraces, Text.unlines]
    case succ n =>
      obtain ⟨more, he, hm⟩ := exists_unlines_cons l (ls.take n)
      rw [List.take_succ_cons, depthBehind_cons_succ, he, netBraces_append, hm, hi]

-- Once a brace has opened on the first line, the others count as a whole.
theorem netBraces_dropWhile_unlines {l : Text} (h : '{' ∈ l) (ls : List Text) (n : Nat) :
    netBraces ((Text.unlines (l :: ls.take n)).dropWhile (· != '{')) =
      netBraces (l.dropWhile (· != '{')) + depthBehind ls n := by
  have hl : (l.dropWhile (· != '{')).isEmpty = false := by
    rw [List.isEmpty_eq_false_iff, ne_eq, List.dropWhile_eq_nil_iff]
    exact fun hn => by simpa using hn _ h
  obtain ⟨more, he, hm⟩ := exists_unlines_cons l (ls.take n)
  rw [he, List.dropWhile_append, hl, if_neg Bool.false_ne_true, netBraces_append, hm,
    netBraces_unlines_take]

namespace Block

theorem depthAfter_some (d : Int) (t : Text) : depthAfter (some d) t = some (d + netBraces t) := by
  induction t generalizing d
  case nil => simp [depthAfter, netBraces]
  case cons c t hi =>
    rw [depthAfter, List.foldl_cons, depth, ← depthAfter, hi]
    by_cases ho : c = '{'
    case pos => simp [ho, netBraces]; omega
    case neg =>
      by_cases hc : c = '}'
      case pos => simp [hc, netBraces]; omega
      case neg => simp [ho, hc, netBraces]

theorem depthAfter_none_of_not_mem {t : Text} (h : '{' ∉ t) : depthAfter none t = none := by
  induction t
  case nil => rfl
  case cons c t hi =>
    simp only [List.mem_cons, not_or] at h
    rw [depthAfter, List.foldl_cons, depth, if_neg (Ne.symm h.left)]
    exact hi h.right

theorem depthAfter_none_of_mem {t : Text} (h : '{' ∈ t) :
    depthAfter none t = some (netBraces (t.dropWhile (· != '{'))) := by
  obtain ⟨before, after, rfl, hn⟩ := List.eq_append_cons_of_mem h
  have hb : ∀ c ∈ before, (c != '{') = true := fun c hc => bne_iff_ne.mpr fun he => hn (he ▸ hc)
  have hs : before.foldl depth none = none := depthAfter_none_of_not_mem hn
  have he : depthAfter none (before ++ '{' :: after) = depthAfter (some 1) after := by
    rw [depthAfter, List.foldl_append, hs]
    rfl
  rw [he, depthAfter_some, List.dropWhile_append_of_pos hb]
  simp [netBraces]
  omega

theorem takeLines_none_append {before : List Text} (h : ∀ l ∈ before, '{' ∉ l) (ls : List Text) :
    takeLines none (before ++ ls) = takeLines none ls := by
  induction before
  case nil => rfl
  case cons l before hi =>
    simp only [List.mem_cons, forall_eq_or_imp] at h
    rw [List.cons_append, takeLines, depthAfter_none_of_not_mem h.left]
    exact hi h.right

-- Induction on the lines: with `d` braces open before them, those are taken at whose start the
-- depth is positive.
theorem takeLines_some {d : Int} (hd : 0 < d) (ls : List Text) :
    ∃ n ≤ ls.length, takeLines (some d) ls = ls.take n ∧ (∀ m < n, 0 < d + depthBehind ls m) ∧
      (d + depthBehind ls n ≤ 0 ∨ n = ls.length) := by
  induction ls generalizing d
  case nil => exact ⟨0, Nat.le_refl 0, rfl, by simp, .inr rfl⟩
  case cons l ls hi =>
    rw [takeLines, depthAfter_some]
    by_cases hk : d + netBraces l ≤ 0
    case pos =>
      refine ⟨1, by simp, by simp [hk], fun m hm => ?_, .inl (by simpa using hk)⟩
      simpa [Nat.lt_one_iff.mp hm] using hd
    case neg =>
      obtain ⟨n, hn, ht, hm, he⟩ := hi (Int.not_le.mp hk)
      refine ⟨n + 1, Nat.succ_le_succ hn, by simp [hk, ht], fun m hmn => ?_, ?_⟩
      case refine_1 =>
        cases m
        case zero   => simpa using hd
        case succ m => simpa [Int.add_assoc] using hm m (Nat.lt_of_succ_lt_succ hmn)
      case refine_2 => simpa [Int.add_assoc] using he

-- The same behind the line on which the first brace opens.
theorem takeLines_none_cons {l : Text} (h : '{' ∈ l) (ls : List Text) :
    ∃ n ≤ ls.length, takeLines none (l :: ls) = l :: ls.take n ∧
      (∀ m < n, 0 < netBraces (l.dropWhile (· != '{')) + depthBehind ls m) ∧
      (netBraces (l.dropWhile (· != '{')) + depthBehind ls n ≤ 0 ∨ n = ls.length) := by
  rw [takeLines, depthAfter_none_of_mem h]
  by_cases hk : netBraces (l.dropWhile (· != '{')) ≤ 0
  case pos => exact ⟨0, Nat.zero_le _, by simp [hk], by simp, .inl (by simpa using hk)⟩
  case neg =>
    obtain ⟨n, hn, ht, hm, he⟩ := takeLines_some (Int.not_le.mp hk) ls
    exact ⟨n, hn, by simp [hk, ht], hm, he⟩

end Block

section Extent

variable {ls : List Text} {start i j i' j' k : Nat}

theorem drop_of_hasBrace (h : HasBrace ls i) :
    ∃ l, '{' ∈ l ∧ ls.drop i = l :: ls.drop (i + 1) := by
  obtain ⟨l, hl, hb⟩ := h
  obtain ⟨hi, rfl⟩ := List.getElem?_eq_some_iff.mp hl
  exact ⟨_, hb, List.drop_eq_getElem_cons hi⟩

theorem IsFirstBrace.inj (h : IsFirstBrace ls start i) (h' : IsFirstBrace ls start i') : i = i' := by
  by_contra hn
  obtain hl | hl := Nat.lt_or_gt_of_ne hn
  · exact h'.first i hl h.le h.brace
  · exact h.first i' hl h'.le h'.brace

theorem exists_isFirstBrace (hs : start ≤ k) (h : HasBrace ls k) :
    ∃ i ≤ k, IsFirstBrace ls start i := by
  classical
  have he : ∃ i, start ≤ i ∧ HasBrace ls i := ⟨k, hs, h⟩
  refine ⟨Nat.find he, Nat.find_le ⟨hs, h⟩, (Nat.find_spec he).left, (Nat.find_spec he).right, ?_⟩
  exact fun m hm hsm hb => Nat.find_min he hm ⟨hsm, hb⟩

theorem IsExtent.inj (h : IsExtent ls start i j) (h' : IsExtent ls start i' j') : i = i' ∧ j = j' := by
  obtain rfl := h.opening.inj h'.opening
  refine ⟨rfl, ?_⟩
  by_contra hn
  obtain hl | hl := Nat.lt_or_gt_of_ne hn
  · exact h.ends.elim (h'.still j hl h.le) fun he => by have := h'.lt; omega
  · exact h'.ends.elim (h.still j' hl h'.le) fun he => by have := h.lt; omega

-- Lines before the first opening brace are passed over.
theorem IsFirstBrace.takeLines_drop (h : IsFirstBrace ls start i) :
    Block.takeLines none (ls.drop start) = Block.takeLines none (ls.drop i) := by
  have hd : ls.drop start = (ls.drop start).take (i - start) ++ ls.drop i := by
    conv_lhs => rw [← List.take_append_drop (i - start) (ls.drop start)]
    rw [List.drop_drop, Nat.add_sub_cancel' h.le]
  rw [hd, Block.takeLines_none_append]
  intro l hl hb
  obtain ⟨m, hm, rfl⟩ := List.mem_iff_getElem.mp hl
  rw [List.length_take, List.length_drop] at hm
  refine h.first (start + m) (by omega) (Nat.le_add_right _ _) ⟨_, ?_, hb⟩
  rw [Option.mem_def, List.getElem?_eq_some_iff]
  exact ⟨by omega, by simp⟩

theorem linesBetween_add {l : Text} {rest : List Text} (hd : ls.drop i = l :: rest) (n : Nat) :
    linesBetween ls i (i + n) = l :: rest.take n := by
  rw [linesBetween, hd, Nat.add_assoc, Nat.add_sub_cancel_left, List.take_succ_cons]

theorem isClosedAt_iff {l : Text} {rest : List Text} (hd : ls.drop i = l :: rest) (hl : '{' ∈ l)
    (n : Nat) :
    IsClosedAt ls i (i + n) ↔ netBraces (l.dropWhile (· != '{')) + depthBehind rest n ≤ 0 := by
  rw [← netBraces_dropWhile_unlines hl, ← linesBetween_add hd, ← sinceBrace, netBraces, IsClosedAt]
  omega

-- What is captured from `start` on has an extent.
theorem IsFirstBrace.exists_extent (h : IsFirstBrace ls start i) :
    ∃ j, IsExtent ls start i j ∧ Block.takeLines none (ls.drop start) = linesBetween ls i j := by
  obtain ⟨l, hl, hd⟩ := drop_of_hasBrace h.brace
  obtain ⟨n, hn, ht, hm, he⟩ := Block.takeLines_none_cons hl (ls.drop (i + 1))
  have hlen := congrArg List.length hd
  simp only [List.length_drop, List.length_cons] at hlen hn he
  refine ⟨i + n, ⟨h, Nat.le_add_right i n, by omega, fun k hk hik => ?still, ?ends⟩, ?lines⟩
  case still =>
    obtain ⟨m, rfl⟩ := Nat.exists_eq_add_of_le hik
    rw [isClosedAt_iff hd hl, Int.not_le]
    exact hm m (by omega)
  case ends  => exact he.imp (isClosedAt_iff hd hl n).mpr fun he => by omega
  case lines => rw [h.takeLines_drop, hd, ht, linesBetween_add hd]

theorem captureBlock_of_extent (h : IsExtent ls start i j) :
    captureBlock (ls.drop start) = Text.trim (Text.unlines (linesBetween ls i j)) := by
  obtain ⟨j', he, ht⟩ := h.opening.exists_extent
  obtain ⟨_, rfl⟩ := h.inj he
  rw [captureBlock, ht]

theorem captureBlock_of_no_brace (h : ∀ k, start ≤ k → ¬HasBrace ls k) :
    captureBlock (ls.drop start) = [] := by
  have hn : ∀ l ∈ ls.drop start, '{' ∉ l := by
    intro l hl hb
    obtain ⟨m, hm⟩ := List.mem_iff_getElem?.mp hl
    exact h (start + m) (Nat.le_add_right _ _) ⟨l, by rwa [List.getElem?_drop] at hm, hb⟩
  rw [captureBlock, ← List.append_nil (ls.drop start), Block.takeLines_none_append hn]
  rfl

-- Code that is captured holds the brace that opens it.
theorem brace_mem_captureBlock (h : IsFirstBrace ls start i) : '{' ∈ captureBlock (ls.drop start) := by
  obtain ⟨l, hl, hd⟩ := drop_of_hasBrace h.brace
  obtain ⟨n, _, ht, _, _⟩ := Block.takeLines_none_cons hl (ls.drop (i + 1))
  obtain ⟨more, he, _⟩ := exists_unlines_cons l ((ls.drop (i + 1)).take n)
  rw [captureBlock, h.takeLines_drop, hd, ht, he]
  exact Text.mem_trim_of_mem (List.mem_append_left more hl) rfl

end Extent

-- From any index on, the code is the lines of the one block that opens first, without the blanks
-- around them; without an opening brace there is no code.
theorem captureBlockAt_extent (ls : List Text) (start : Int) :
    (∃ i j, IsExtent ls (startLine ls start) i j ∧
      captureBlockAt ls start = Text.trim (Text.unlines (linesBetween ls i j))) ∨
    (∀ k, startLine ls start ≤ k → ¬HasBrace ls k) ∧ captureBlockAt ls start = [] := by
  by_cases h : ∃ k, startLine ls start ≤ k ∧ HasBrace ls k
  case pos =>
    obtain ⟨k, hk, hb⟩ := h
    obtain ⟨i, _, hi⟩ := exists_isFirstBrace hk hb
    obtain ⟨j, hj, _⟩ := hi.exists_extent
    exact .inl ⟨i, j, hj, captureBlock_of_extent hj⟩
  case neg =>
    have h : ∀ k, startLine ls start ≤ k → ¬HasBrace ls k := fun k hk hb => h ⟨k, hk, hb⟩
    exact .inr ⟨h, captureBlock_of_no_brace h⟩

-- Braces that close before the first one opens do not count, and a line that closes the block and
-- opens it again does not end the code.
example : captureBlockAt (Text.lines "\x7d\x7d run(() => \x7b\n\x7d, () => \x7b\n\x7d);\nend();".toList) 0 =
    "\x7d\x7d run(() => \x7b\n\x7d, () => \x7b\n\x7d);".toList := by
  decide +kernel

end GherkinView.Script
