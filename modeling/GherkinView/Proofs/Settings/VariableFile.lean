import Mathlib.Data.Option.Basic
import GherkinView.Settings.VariableFile

namespace GherkinView.Settings

-- What the last statement on a name sets it to.
def VariableFile.get? (file : VariableFile) (vs : Variables) (name : Text) : Option Text :=
  ((file.expanded vs).find? (·.name == name)).bind (·.value)

namespace Variables

variable {vs new : Variables} {file : VariableFile} {name : Text}

theorem get?_set (vs : Variables) (name value other : Text) :
    (vs.set name value).get? other = if other = name then some value else vs.get? other := by
  rw [set, get?, List.lookup_cons]
  split
  case h_1 h => rw [if_pos (eq_of_beq h)]
  case h_2 h =>
    have hn : other ≠ name := ne_of_beq_false h
    rw [if_neg hn, get?]
    induction vs
    case nil => rfl
    case cons v vs hi => grind

-- What a statement of the file leaves of the variables so far.
def next (vs : Variables) (file : VariableFile) (new : Variables) (s : Statement) : Variables :=
  if vs.isSet s.name then new
  else match file.get? vs s.name with
    | some v => new.set s.name v
    | none => new

theorem load_eq_foldl (vs : Variables) (file : VariableFile) :
    vs.load file = (file.expanded vs).reverse.foldl (vs.next file) vs :=
  rfl

theorem get?_next {s : Statement}
    (h : new.get? name = vs.get? name ∨ new.get? name = (vs.get? name).or (file.get? vs name)) :
    (vs.next file new s).get? name =
      if s.name = name then (vs.get? name).or (file.get? vs name) else new.get? name := by
  rw [next, isSet]
  by_cases hn : s.name = name
  case pos =>
    rw [hn, if_pos rfl]
    cases hv : vs.get? name
    case some v => simpa [hv] using h
    case none =>
      cases hf : file.get? vs name
      case none   => simpa [hv, hf] using h
      case some v => simp [get?_set]
  case neg =>
    rw [if_neg hn]
    cases vs.get? s.name
    case some v => rfl
    case none =>
      cases file.get? vs s.name
      case none   => rfl
      case some v => exact (get?_set new s.name v name).trans (if_neg (Ne.symm hn))

-- A variable has what it had before all statements, or what all of them together make of it.
theorem get?_foldl_next {statements : List Statement}
    (h : new.get? name = vs.get? name ∨ new.get? name = (vs.get? name).or (file.get? vs name)) :
    (statements.foldl (vs.next file) new).get? name =
      if name ∈ statements.map (·.name) then (vs.get? name).or (file.get? vs name) else new.get? name := by
  induction statements generalizing new
  case nil => rfl
  case cons s statements hi =>
    have hs := get?_next h (s := s)
    rw [List.foldl_cons, List.map_cons]
    by_cases hn : s.name = name
    case pos =>
      rw [if_pos hn] at hs
      rw [hi (.inr hs), hs, ite_self, if_pos (hn ▸ List.mem_cons_self)]
    case neg =>
      rw [if_neg hn] at hs
      rw [hi (hs ▸ h), hs]
      simp [Ne.symm hn]

theorem get?_load (vs : Variables) (file : VariableFile) (name : Text) :
    (vs.load file).get? name = (vs.get? name).or (file.get? vs name) := by
  rw [load_eq_foldl, get?_foldl_next (.inl rfl)]
  split
  case isTrue  => rfl
  case isFalse h =>
    have hn : (file.expanded vs).find? (·.name == name) = none := by
      refine List.find?_eq_none.mpr fun s hs he => h ?_
      exact List.mem_map.mpr ⟨s, List.mem_reverse.mpr hs, eq_of_beq he⟩
    rw [VariableFile.get?, hn, Option.bind_none, Option.or_none]

end Variables

end GherkinView.Settings
