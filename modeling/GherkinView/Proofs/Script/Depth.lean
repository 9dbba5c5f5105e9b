import GherkinView.Script.Line

namespace GherkinView.Script

-- The running depth behind the first `n` lines.
def depthBehind : List Text → Nat → Int
  | l :: ls, n + 1 => netBraces l + depthBehind ls n
  | _, _ => 0

@[simp]
theorem depthBehind_zero (ls : List Text) : depthBehind ls 0 = 0 := by
  cases ls <;> rfl

@[simp]
theorem depthBehind_cons_succ (l : Text) (ls : List Text) (n : Nat) :
    depthBehind (l :: ls) (n + 1) = netBraces l + depthBehind ls n :=
  rfl

-- No line closes more than is open, and nothing is open at the end.
structure Balanced (ls : List Text) : Prop where
  nonneg : ∀ n ≤ ls.length, 0 ≤ depthBehind ls n
  closed : depthBehind ls ls.length = 0

instance (ls : List Text) : Decidable (Balanced ls) :=
  decidable_of_iff ((∀ n ≤ ls.length, 0 ≤ depthBehind ls n) ∧ depthBehind ls ls.length = 0)
    ⟨fun h => ⟨h.left, h.right⟩, fun h => ⟨h.nonneg, h.closed⟩⟩

-- The line with index `i`, read without a state.
def lineAt (ls : List Text) (i : Nat) (line : Text) : Line :=
  ⟨i + 1, .of (depthBehind ls (i + 1)) line (ls.drop i)⟩

def classify (ls : List Text) : List Line :=
  ls.mapIdx (lineAt ls)

theorem readLines_eq_mapIdx (number : Nat) (depth : Int) (ls : List Text) :
    readLines number depth ls = ls.mapIdx fun i line =>
      ⟨number + i, .of (depth + depthBehind ls (i + 1)) line (ls.drop i)⟩ := by
  induction ls generalizing number depth
  case nil => rfl
  case cons line rest hi =>
    simp only [readLines, hi, List.mapIdx_cons, depthBehind_cons_succ, List.drop_succ_cons]
    simp [Int.add_assoc, Nat.add_assoc, Nat.add_comm 1]

-- Numbers start at one and the depth at zero.
theorem readLines_eq_classify (ls : List Text) : readLines 1 0 ls = classify ls := by
  simp only [readLines_eq_mapIdx, Int.zero_add, Nat.add_comm 1]
  rfl

theorem number_classify (ls : List Text) :
    (classify ls).map Line.number = List.range' 1 ls.length := by
  apply List.ext_getElem <;> simp [classify, lineAt, Nat.add_comm]

theorem nodup_number_classify (ls : List Text) : ((classify ls).map Line.number).Nodup :=
  number_classify ls ▸ List.nodup_range'

end GherkinView.Script
