import Mathlib.Data.List.Basic
import GherkinView.File.Discovery
import GherkinView.Proofs.File.Frame

namespace GherkinView.File

-- Parts without double dots.
def Straight (parts : List Text) : Prop :=
  ['.', '.'] ∉ parts

instance (parts : List Text) : Decidable (Straight parts) :=
  inferInstanceAs (Decidable (_ ∉ _))

variable {t : Tree} {l : Location} {p q root : Path} {parts parts' : List Text}
variable {segments : List Segment}

namespace Straight

theorem nil : Straight [] :=
  List.not_mem_nil

theorem cons {part : Text} (h : part ≠ ['.', '.']) (hs : Straight parts) :
    Straight (part :: parts) :=
  List.not_mem_cons_of_ne_of_not_mem h.symm hs

theorem append (h : Straight parts) (h' : Straight parts') : Straight (parts ++ parts') :=
  List.not_mem_append h h'

theorem sublist (h : Straight parts) (hs : parts'.Sublist parts) : Straight parts' :=
  fun hm => h (hs.mem hm)

theorem foldl_advance (h : Straight parts) (l : Location) :
    parts.foldl Tree.advance l = l ++ parts := by
  induction parts generalizing l
  case nil => rw [List.foldl_nil, List.append_nil]
  case cons part parts hi =>
    have hp : part ≠ ['.', '.'] := (List.ne_of_not_mem_cons h).symm
    rw [List.foldl_cons, hi (h.sublist (List.sublist_cons_self _ _)), Tree.advance, if_neg hp,
      List.append_assoc, List.singleton_append]

-- Double dots are followed, and so they are never part of where one gets to.
theorem advance (h : Straight l) (part : Text) : Straight (Tree.advance l part) := by
  rw [Tree.advance]
  split
  case isTrue     => exact h.sublist (List.dropLast_sublist l)
  case isFalse hp => exact h.append (.cons hp .nil)

theorem foldl_advance_of (h : Straight l) : Straight (parts.foldl Tree.advance l) := by
  induction parts generalizing l
  case nil                => exact h
  case cons part parts hi => exact hi (h.advance part)

end Straight

-- The path leads down from `root`.
def Path.IsBelow (root p : Path) : Prop :=
  ∃ parts, p.parts = root.parts ++ parts ∧ Straight parts

namespace Path.IsBelow

theorem refl (p : Path) : IsBelow p p :=
  ⟨[], (List.append_nil _).symm, .nil⟩

theorem trans (h : IsBelow root p) (h' : IsBelow p q) : IsBelow root q :=
  have ⟨parts, he, hs⟩ := h
  have ⟨parts', he', hs'⟩ := h'
  ⟨parts ++ parts', by rw [he', he, List.append_assoc], hs.append hs'⟩

theorem child (p : Path) {name : Text} (h : name ≠ ['.', '.']) : IsBelow p (p.child name) :=
  ⟨[name], rfl, .cons h .nil⟩

end Path.IsBelow

-- No name is that of double dots.
structure Tree.IsStraight (t : Tree) : Prop where
  entry : ∀ entry ∈ t.entries, Straight entry.1
  link : ∀ link ∈ t.links, Straight link.1

namespace Tree.IsStraight

variable {e : Entry}

theorem put (ht : t.IsStraight) (hl : Straight l) (e : Entry) : (t.put l e).IsStraight where
  link := by
    rw [(SamePaths.put t l e).links]
    exact ht.link
  entry entry hm := by
    rw [Tree.put] at hm
    split at hm
    case isTrue =>
      obtain ⟨old, ho, rfl⟩ := List.mem_map.mp hm
      exact ht.entry old ho
    case isFalse =>
      obtain hm | hm := List.mem_append.mp hm
      case inl => exact ht.entry entry hm
      case inr => exact List.mem_singleton.mp hm ▸ hl

theorem add (ht : t.IsStraight) (hl : Straight l) (e : Entry) : (t.add l e).IsStraight := by
  rw [Tree.add]
  split
  case isTrue => exact ht.put hl e
  case isFalse =>
    rw [touchHolder]
    split
    case h_1 => exact (ht.put hl e).put (hl.sublist (List.dropLast_sublist l)) _
    case h_2 => exact ht.put hl e

theorem openLog (ht : t.IsStraight) (hu : t.links = []) (hh : Straight t.home) {t' : Tree}
    (h : t.openLog p = .ok (t', l)) : t'.IsStraight := by
  have hl : Straight l := by
    rw [locate_eq (openLog_eq_ok_cases h).left, locationOf, step_eq_advance hu]
    split
    case isTrue  => exact Straight.nil.foldl_advance_of
    case isFalse => exact hh.foldl_advance_of
  obtain ⟨k, _, h⟩ := bind_eq_ok.mp h
  split at h <;> cases h
  case h_1 => exact ht
  case h_2 =>
    have ha := ht.add hl (.file [] (.fresh t.changes))
    exact ⟨ha.entry, ha.link⟩

end Tree.IsStraight

def Segment.IsStraight (s : Segment) : Prop :=
  s ≠ .name ['.', '.']

namespace Tree

theorem ne_of_mem_childrenAt {name : Text} {e : Entry} (ht : t.IsStraight)
    (h : (name, e) ∈ t.childrenAt p) : name ≠ ['.', '.'] := by
  have named {l k : Location} (hk : Straight k) (h : nameIn? l k = some name) : name ≠ ['.', '.'] := by
    obtain ⟨_, h⟩ := Option.ite_none_right_eq_some.mp h
    exact fun he => hk (he ▸ List.mem_of_getLast? h)
  rw [childrenAt] at h
  split at h
  case h_2 => contradiction
  case h_1 l _ =>
    rw [children, List.mem_append, List.mem_filterMap, List.mem_filterMap] at h
    obtain ⟨⟨k, e'⟩, hk, h⟩ | ⟨⟨k, k'⟩, hk, h⟩ := h
    case inl =>
      obtain ⟨_, hn, ⟨⟩⟩ := Option.map_eq_some_iff.mp h
      exact named (ht.entry _ hk) hn
    case inr =>
      obtain ⟨_, hn, h⟩ := Option.bind_eq_some_iff.mp h
      obtain ⟨_, _, ⟨⟩⟩ := Option.map_eq_some_iff.mp h
      exact named (ht.link _ hk) hn

theorem isBelow_of_mem_directoriesFrom (ht : t.IsStraight) (h : q ∈ t.directoriesFrom p) :
    p.IsBelow q := by
  obtain h | h := List.mem_cons.mp h
  case inl => rw [h]; exact .refl p
  case inr =>
    split at h
    case h_2 => contradiction
    case h_1 l _ =>
      obtain ⟨below, hb, rfl⟩ := List.mem_map.mp h
      have ⟨⟨k, e⟩, hk, h⟩ := List.mem_filterMap.mp hb
      have hp : l.isPrefixOf? k = some below := by grind
      rw [List.isPrefixOf?_eq_some_iff_append_eq] at hp
      exact ⟨below, rfl, (ht.entry _ hk).sublist (hp ▸ List.sublist_append_right _ _)⟩

theorem isBelow_of_mem_glob (ht : t.IsStraight) (hs : ∀ s ∈ segments, s.IsStraight)
    (h : q ∈ t.glob p segments) : p.IsBelow q := by
  induction segments generalizing p
  case nil => rw [List.mem_singleton.mp h]; exact .refl p
  case cons s segments hi =>
    have hi {p : Path} := hi (p := p) fun s hm => hs s (List.mem_cons_of_mem _ hm)
    cases s
    case here => rw [List.mem_singleton.mp h]; exact .refl p
    case name n =>
      have hn : n ≠ ['.', '.'] := fun he => hs _ List.mem_cons_self (congrArg _ he)
      exact (Path.IsBelow.child p hn).trans (hi (List.mem_ite_nil_right.mp h).2)
    case wild glyphs =>
      have ⟨⟨name, e⟩, hm, h⟩ := List.mem_flatMap.mp h
      have hn := ne_of_mem_childrenAt ht (List.mem_filter.mp hm).1
      exact (Path.IsBelow.child p hn).trans (hi h)
    case anyDepth =>
      have ⟨p', hm, h⟩ := List.mem_flatMap.mp h
      exact (isBelow_of_mem_directoriesFrom ht hm).trans (hi h)

end Tree

theorem exists_parts_of_parsePattern {pattern : Text} (h : parsePattern pattern = .ok segments) :
    ∃ named, (Path.ofText pattern).parts.mapM Segment.ofPart = .ok named ∧
      ∀ s ∈ segments, s ∈ named ∨ s = .here := by
  rw [parsePattern] at h
  split at h
  case isTrue  => contradiction
  case isFalse =>
    dsimp only at h
    split at h
    case isTrue  => contradiction
    case isFalse =>
      have ⟨named, hm, h⟩ := bind_eq_ok.mp h
      refine ⟨named, hm, fun s hs => ?_⟩
      split at h
      case isTrue  => contradiction
      case isFalse =>
        cases h
        split at hs
        case isTrue  => simpa using hs
        case isFalse => exact .inl hs

theorem eq_of_ofPart_eq_name {part n : Text} (h : Segment.ofPart part = .ok (.name n)) :
    part = n := by
  rw [Segment.ofPart] at h
  split at h
  case isTrue  => cases h
  case isFalse =>
    split at h
    case isTrue  => cases h
    case isFalse => split at h <;> cases h; rfl

theorem isStraight_of_parsePattern {pattern : Text} (h : parsePattern pattern = .ok segments)
    (hs : Straight (Path.ofText pattern).parts) : ∀ s ∈ segments, s.IsStraight := by
  have ⟨named, hn, hm⟩ := exists_parts_of_parsePattern h
  intro s hms he
  obtain hms | hms := hm s hms
  case inl =>
    have ⟨part, hp, ho⟩ := exists_of_mem_mapM hn hms
    exact hs (eq_of_ofPart_eq_name (he ▸ ho) ▸ hp)
  case inr => rw [he] at hms; contradiction

end GherkinView.File
