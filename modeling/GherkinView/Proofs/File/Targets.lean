import GherkinView.Conversion
import GherkinView.Proofs.File.Glob
import GherkinView.Report

namespace GherkinView

namespace Text

variable {c : Char} {t r : Text}

theorem cutLast?_eq_none (h : c ∉ r) : cutLast? c r = none := by
  induction r
  case nil => rfl
  case cons d r hi =>
    rw [cutLast?, hi fun hr => h (List.mem_cons_of_mem _ hr)]
    exact if_neg (List.ne_of_not_mem_cons h).symm

theorem cutLast?_append (t : Text) (h : c ∉ r) : cutLast? c (t ++ c :: r) = some (t, r) := by
  induction t
  case nil =>
    rw [List.nil_append, cutLast?, cutLast?_eq_none h]
    exact if_pos rfl
  case cons d t hi => rw [List.cons_append, cutLast?, hi]

end Text

namespace File

variable {t t' : Tree} {p q source root out : Path} {name : Text}

namespace Path

theorem name_child (p : Path) (name : Text) : (p.child name).name = name := by
  rw [Path.name, child, List.getLast?_concat, Option.getD_some]

theorem child_join (p : Path) (below : List Text) (name : Text) :
    (p.join ⟨[], below⟩).child name = { p with parts := p.parts ++ (below ++ [name]) } :=
  congrArg (Path.mk p.root) (List.append_assoc ..)

theorem suffix_of_name {stem r : Text} (hn : p.name = stem ++ '.' :: r) (hr : '.' ∉ r) :
    p.suffix = [] ∨ p.suffix = '.' :: r := by
  simp only [suffix, hn, splitName, Text.cutLast?_append stem hr]
  split
  case isTrue  => exact .inl rfl
  case isFalse => exact .inr rfl

theorem parts_eq_concat (h : p.name ≠ []) : ∃ above, p.parts = above ++ [p.name] := by
  cases hl : p.parts.getLast?
  case none => simp [Path.name, hl] at h
  case some name =>
    have ⟨above, ha⟩ := List.getLast?_eq_some_iff.mp hl
    exact ⟨above, by rw [Path.name, hl, ha, Option.getD_some]⟩

end Path

namespace Tree

-- Where a path with a proper name at its end leads, if that is no link.
theorem locationOf_eq_concat (hu : t.links = []) (hn : p.name ≠ []) (hd : p.name ≠ ['.', '.']) :
    t.locationOf p = t.locationOf p.parent ++ [p.name] := by
  have ⟨above, ha⟩ := Path.parts_eq_concat hn
  simp only [locationOf, Path.parent, Path.isAbsolute, step_eq_advance hu]
  rw [ha, List.foldl_append, List.dropLast_concat, List.foldl_cons, List.foldl_nil,
    advance, if_neg hd]
  rfl

end Tree
end File

open File Gherkin

variable {t : Tree} {source root out p : Path} {format : Format} {withSuffix : Bool}

-- A dot and a word.
theorem Gherkin.Format.suffix_eq (f : Format) : ∃ word, f.suffix = '.' :: word ∧ '.' ∉ word := by
  cases f <;> exact ⟨_, rfl, by decide⟩

-- The name of a target is some stem with the suffix of the format.
theorem target_eq_ok (h : target t source root out format withSuffix = .ok p) :
    ∃ place stem, placeBelow t source root = .ok place ∧
      p = (out.join place).child (stem ++ format.suffix) := by
  have ⟨place, hp, h⟩ := bind_eq_ok.mp h
  cases h
  exact ⟨place, _, hp, rfl⟩

theorem scriptSuffix_of_checkSource (h : checkSource p = .ok ()) :
    Text.lower p.suffix ∈ scriptSuffixes := by
  rw [checkSource] at h
  split at h
  case isTrue hs => exact List.contains_iff_mem.mp hs
  case isFalse   => contradiction

-- Neither does nothing have a suffix, nor do double dots.
theorem name_of_checkSource (h : checkSource p = .ok ()) : p.name ≠ [] ∧ p.name ≠ ['.', '.'] := by
  have hs := scriptSuffix_of_checkSource h
  constructor <;> intro hn <;> rw [Path.suffix, hn] at hs <;> revert hs <;> decide

-- No script is named like a target.
theorem name_ne_of_checkSource (h : checkSource p = .ok ()) (stem : Text) (format : Format) :
    p.name ≠ stem ++ format.suffix := by
  intro hn
  have ⟨word, hw, hd⟩ := format.suffix_eq
  have hs := scriptSuffix_of_checkSource h
  obtain he | he := Path.suffix_of_name (hw ▸ hn) hd
  case inl => rw [he] at hs; revert hs; decide
  case inr => rw [he, ← hw] at hs; revert hs; cases format <;> decide

theorem name_target (h : target t source root out format withSuffix = .ok p) :
    ∃ stem, p.name = stem ++ format.suffix := by
  have ⟨place, stem, _, hp⟩ := target_eq_ok h
  exact ⟨stem, by rw [hp, Path.name_child]⟩

theorem name_target_ne (h : target t source root out format withSuffix = .ok p) :
    p.name ≠ [] ∧ p.name ≠ ['.', '.'] := by
  have ⟨stem, hn⟩ := name_target h
  have ends {name : Text} (he : p.name = name) : format.suffix <:+ name := ⟨stem, he ▸ hn.symm⟩
  constructor <;> intro he <;> have hs := ends he <;> revert hs <;> cases format <;> decide

-- Without links no target stands where a script does.
theorem locationOf_target_ne {script : Path} (hu : t.links = []) (hs : checkSource script = .ok ())
    (h : target t source root out format withSuffix = .ok p) :
    t.locationOf script ≠ t.locationOf p := by
  have ⟨hn, hd⟩ := name_of_checkSource hs
  have ⟨hn', hd'⟩ := name_target_ne h
  have ⟨stem, he⟩ := name_target h
  rw [Tree.locationOf_eq_concat hu hn hd, Tree.locationOf_eq_concat hu hn' hd', he]
  intro hl
  have hc := List.append_inj_right' hl rfl
  exact name_ne_of_checkSource hs stem format (List.singleton_inj.mp hc)

-- Below one directory different targets stand at different locations.

theorem placeBelow_eq_ok {place : Path} (hd : t.isDirectory root) (h : placeBelow t source root = .ok place) :
    ∃ below, source.parent = { root with parts := root.parts ++ below } ∧ place = ⟨[], below⟩ := by
  rw [placeBelow, if_pos hd, Path.below?] at h
  split at h
  case h_2 => contradiction
  case h_1 found hf =>
    cases h
    split at hf
    case isFalse => contradiction
    case isTrue hr =>
      obtain ⟨below, hp, rfl⟩ := Option.map_eq_some_iff.mp hf
      rw [List.isPrefixOf?_eq_some_iff_append_eq] at hp
      exact ⟨below, by rw [hp, ← hr], rfl⟩

theorem straight_of_parent {below : List Text} (hb : root.IsBelow source)
    (h : source.parent = { root with parts := root.parts ++ below }) : Straight below := by
  have ⟨parts, hp, hs⟩ := hb
  have hl : root.parts ++ below <+: root.parts ++ parts := by
    have he : source.parts.dropLast = root.parts ++ below := congrArg Path.parts h
    rw [← he, ← hp]
    exact List.dropLast_prefix _
  exact hs.sublist ((List.prefix_append_right_inj _).mp hl).sublist

theorem straight_name_target (h : target t source root out format withSuffix = .ok p) : Straight [p.name] :=
  .cons (name_target_ne h).right .nil

-- The target is below the output directory, where the source is below the root.
theorem target_below (hd : t.isDirectory root) (hb : root.IsBelow source)
    (h : target t source root out format withSuffix = .ok p) :
    ∃ below, source.parent = { root with parts := root.parts ++ below } ∧ Straight (below ++ [p.name]) ∧
      p = { out with parts := out.parts ++ (below ++ [p.name]) } := by
  have hn := straight_name_target h
  obtain ⟨place, stem, hp, rfl⟩ := target_eq_ok h
  obtain ⟨below, he, rfl⟩ := placeBelow_eq_ok hd hp
  refine ⟨below, he, (straight_of_parent hb he).append hn, ?_⟩
  rw [Path.name_child, Path.child_join]

theorem File.Tree.locationOf_below (hu : t.links = []) (out : Path) {parts : List Text}
    (h : Straight parts) : t.locationOf { out with parts := out.parts ++ parts } = t.locationOf out ++ parts := by
  rw [locationOf, List.foldl_append, step_eq_advance hu, h.foldl_advance, locationOf, step_eq_advance hu]
  rfl

theorem target_inj {source' p' : Path} {withSuffix' : Bool} (hu : t.links = []) (hd : t.isDirectory root)
    (hb : root.IsBelow source) (hb' : root.IsBelow source')
    (h : target t source root out format withSuffix = .ok p)
    (h' : target t source' root out format withSuffix' = .ok p')
    (hl : t.locationOf p = t.locationOf p') : p = p' := by
  obtain ⟨_, _, hs, hp⟩ := target_below hd hb h
  obtain ⟨_, _, hs', hp'⟩ := target_below hd hb' h'
  rw [hp, hp', Tree.locationOf_below hu out hs, Tree.locationOf_below hu out hs'] at hl
  rw [hp, hp', List.append_cancel_left hl]

end GherkinView
