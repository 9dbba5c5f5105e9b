import Mathlib.Data.Char
import Mathlib.Data.List.Lex
import GherkinView.Proofs.File.Without

namespace GherkinView.File

variable {p q root : Path} {ps qs : List Path} {slashes : Text}

-- The order of paths

namespace Path

theorem precedes_iff : p.precedes q ↔ p.sortKey < q.sortKey := by
  have hc : (fun s t : Text => List.lex s t (fun c d => decide (c < d)) = true) = (· < ·) := by
    funext s t
    exact propext List.lex_eq_true_iff_lt
  rw [precedes, List.lex_eq_true_iff_lex, hc]
  rfl

theorem not_precedes_iff : !q.precedes p ↔ p.sortKey ≤ q.sortKey := by
  rw [Bool.not_eq_true', ← Bool.not_eq_true, precedes_iff, not_lt]

theorem eq_of_sortKey_eq (hr : p.root = q.root) (hk : p.sortKey = q.sortKey) : p = q := by
  have hp : p.parts = q.parts := by
    rw [sortKey, sortKey, isAbsolute, isAbsolute, hr] at hk
    split at hk
    case isTrue  => exact List.tail_eq_of_cons_eq hk
    case isFalse => exact hk
  cases p
  cases q
  cases hr
  cases hp
  rfl

end Path

theorem nodup_eraseDups : (ps : List Path) → ps.eraseDups.Nodup
  | [] => .nil
  | p :: ps => by
    rw [List.eraseDups_cons, List.nodup_cons, List.mem_eraseDups]
    exact ⟨by simp, nodup_eraseDups _⟩
termination_by ps => ps.length
decreasing_by exact Nat.lt_succ_of_le (List.length_filter_le _ _)

theorem mem_sortedOnce : p ∈ sortedOnce ps ↔ p ∈ ps := by
  rw [sortedOnce, List.mem_mergeSort, List.mem_eraseDups]

theorem nodup_sortedOnce (ps : List Path) : (sortedOnce ps).Nodup :=
  (List.mergeSort_perm _ _).nodup_iff.mpr (nodup_eraseDups ps)

theorem pairwise_sortedOnce (ps : List Path) :
    (sortedOnce ps).Pairwise fun p q => p.sortKey ≤ q.sortKey := by
  have h : (sortedOnce ps).Pairwise fun p q => !q.precedes p := by
    refine List.pairwise_mergeSort (fun p q r hp hq => ?_) (fun p q => ?_) _
    case refine_1 =>
      rw [Path.not_precedes_iff] at hp hq ⊢
      exact le_trans hp hq
    case refine_2 =>
      rw [Bool.or_eq_true_iff, Path.not_precedes_iff, Path.not_precedes_iff]
      exact le_total _ _
  exact h.imp Path.not_precedes_iff.mp

-- There is only one way to list paths of the same root in their order.
theorem eq_sortedOnce (hr : ∀ p ∈ ps, p.root = slashes) (hn : qs.Nodup)
    (hs : qs.Pairwise fun p q => p.sortKey ≤ q.sortKey) (hm : ∀ p, p ∈ qs ↔ p ∈ ps) :
    qs = sortedOnce ps := by
  refine List.Perm.eq_of_pairwise ?_ hs (pairwise_sortedOnce ps) ?_
  case refine_1 =>
    intro p q hp hq hpq hqp
    have hr := (hr p ((hm p).mp hp)).trans (hr q (mem_sortedOnce.mp hq)).symm
    exact Path.eq_of_sortKey_eq hr (le_antisymm hpq hqp)
  case refine_2 =>
    refine (List.perm_ext_iff_of_nodup hn (nodup_sortedOnce ps)).mpr fun p => ?_
    rw [hm, mem_sortedOnce]

theorem sortedOnce_filter (hr : ∀ p ∈ ps, p.root = slashes) (keep : Path → Bool) :
    sortedOnce (ps.filter keep) = (sortedOnce ps).filter keep := by
  refine (eq_sortedOnce (fun p hp => hr p (List.mem_of_mem_filter hp))
    ((nodup_sortedOnce ps).filter _) ((pairwise_sortedOnce ps).filter _) fun p => ?_).symm
  rw [List.mem_filter, List.mem_filter, mem_sortedOnce]

-- What is found

-- The path goes on from `root`, be it back up.
def Path.Extends (root p : Path) : Prop :=
  ∃ parts, p = { root with parts := root.parts ++ parts }

namespace Path.Extends

theorem refl (p : Path) : Extends p p :=
  ⟨[], by rw [List.append_nil]⟩

theorem trans (h : Extends root p) (h' : Extends p q) : Extends root q := by
  obtain ⟨parts, rfl⟩ := h
  obtain ⟨parts', rfl⟩ := h'
  exact ⟨parts ++ parts', by rw [List.append_assoc]⟩

theorem child (p : Path) (name : Text) : Extends p (p.child name) :=
  ⟨[name], rfl⟩

theorem root_eq (h : Extends root p) : p.root = root.root := by
  obtain ⟨_, rfl⟩ := h
  rfl

-- Unless the path is the one it goes on from, so does the path above it.
theorem parent (h : Extends root p) (hn : p ≠ root) : Extends root p.parent := by
  obtain ⟨parts, rfl⟩ := h
  have hp : parts ≠ [] := by
    intro he
    rw [he, List.append_nil] at hn
    exact hn rfl
  exact ⟨parts.dropLast, by rw [Path.parent, List.dropLast_append_of_ne_nil hp]⟩

theorem below? (h : Extends root p) : ∃ place, p.below? root = some place := by
  obtain ⟨parts, rfl⟩ := h
  have hp : root.parts.isPrefixOf? (root.parts ++ parts) = some parts :=
    List.isPrefixOf?_eq_some_iff_append_eq.mpr rfl
  exact ⟨_, by rw [Path.below?, if_pos rfl, hp, Option.map_some]⟩

end Path.Extends

namespace Tree

variable {t : Tree} {segments : List Segment} {pattern : Text} {gone : List Location}

theorem extends_of_mem_directoriesFrom (h : q ∈ t.directoriesFrom p) : p.Extends q := by
  obtain h | h := List.mem_cons.mp h
  case inl => rw [h]; exact .refl p
  case inr =>
    split at h
    case h_2 => contradiction
    case h_1 =>
      obtain ⟨below, _, rfl⟩ := List.mem_map.mp h
      exact ⟨below, rfl⟩

theorem extends_of_mem_glob (h : q ∈ t.glob p segments) : p.Extends q := by
  induction segments generalizing p
  case nil => rw [List.mem_singleton.mp h]; exact .refl p
  case cons segment segments hi =>
    cases segment
    case here   => rw [List.mem_singleton.mp h]; exact .refl p
    case name n => exact (Path.Extends.child p n).trans (hi (List.mem_ite_nil_right.mp h).2)
    case wild glyphs =>
      have ⟨⟨name, _⟩, _, h⟩ := List.mem_flatMap.mp h
      exact (Path.Extends.child p name).trans (hi h)
    case anyDepth =>
      have ⟨p', hm, h⟩ := List.mem_flatMap.mp h
      exact (extends_of_mem_directoriesFrom hm).trans (hi h)

theorem extends_of_filesMatching {found : List Path} (h : t.filesMatching root pattern = .ok found)
    (hp : p ∈ found) : root.Extends p := by
  rw [filesMatching] at h
  split at h
  case h_1 => contradiction
  case h_2 =>
    cases h
    have hp := (List.mem_filter.mp hp).1
    split at hp
    case isTrue  => exact extends_of_mem_glob hp
    case isFalse => contradiction

theorem filesMatching_without (hw : t.IsWellFormed) (hg : t.AreFiles gone) (root : Path) (pattern : Text) :
    (t.without gone).filesMatching root pattern =
      (t.filesMatching root pattern).map (List.filter (t.locationOf · ∉ gone)) := by
  rw [filesMatching, filesMatching]
  cases parsePattern pattern
  case error => rfl
  case ok segments =>
    have hk : (t.without gone).isFile = fun p => decide (t.locationOf p ∉ gone) && t.isFile p := by
      funext p
      rw [Bool.eq_iff_iff, isFile_without hg, Bool.and_eq_true, decide_eq_true_iff, and_comm]
    rw [isDirectory_without hg]
    dsimp only [Except.map]
    split
    case isFalse => rfl
    case isTrue =>
      rw [filter_glob_without hw hg, hk, List.filter_filter]

end Tree
end GherkinView.File
