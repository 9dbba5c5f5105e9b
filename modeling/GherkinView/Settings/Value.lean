import GherkinView.Number.Shortest
import GherkinView.Text.Display

namespace GherkinView.Settings

open Number

inductive Scalar
  | null
  | bool (b : Bool)
  | int (n : Int)
  | number (x : Binary64)
  | text (t : Text)
  -- A date or a time, by how it is shown.
  | moment (shown : Text)
  deriving DecidableEq

-- Numbers and booleans that are equal are one key.
def Scalar.key : Scalar → Scalar
  | bool b => int (if b then 1 else 0)
  | number x => (x.toInt?.map int).getD (number x)
  | s => s

-- The entries of a mapping are in the order in which their keys were first set. Mappings with the same anchor
-- are one, wherever they stand: what is set in one of them is set in all.
inductive Value
  | scalar (s : Scalar)
  | list (items : List Value)
  | mapping (entries : List (Scalar × Value)) (anchor : Option Nat := none)
  deriving Inhabited

namespace Value

mutual

def decEq : (v w : Value) → Decidable (v = w)
  | scalar s, scalar s' => decidable_of_iff (s = s') (scalar.injEq s s' ▸ .rfl)
  | list vs, list ws =>
    have := decEqItems vs ws
    decidable_of_iff (vs = ws) (list.injEq vs ws ▸ .rfl)
  | mapping es a, mapping fs b =>
    have := decEqEntries es fs
    decidable_of_iff (es = fs ∧ a = b) (mapping.injEq es a fs b ▸ .rfl)
  | scalar _, list _ | scalar _, mapping _ _ | list _, scalar _ | list _, mapping _ _ | mapping _ _, scalar _
  | mapping _ _, list _ => isFalse nofun

def decEqItems : (vs ws : List Value) → Decidable (vs = ws)
  | [], [] => isTrue rfl
  | v :: vs, w :: ws =>
    have := decEq v w
    have := decEqItems vs ws
    decidable_of_iff (v = w ∧ vs = ws) (List.cons.injEq v vs w ws ▸ .rfl)
  | [], _ :: _ | _ :: _, [] => isFalse nofun

def decEqEntries : (es fs : List (Scalar × Value)) → Decidable (es = fs)
  | [], [] => isTrue rfl
  | (k, v) :: es, (j, w) :: fs =>
    have := decEq v w
    have := decEqEntries es fs
    decidable_of_iff (k = j ∧ v = w ∧ es = fs) (by simp [and_assoc])
  | [], _ :: _ | _ :: _, [] => isFalse nofun

end

instance : DecidableEq Value := decEq

end Value

abbrev Entries := List (Scalar × Value)

namespace Entries

def get? (es : Entries) (k : Scalar) : Option Value :=
  (es.find? (·.1.key = k.key)).map (·.2)

-- A key that is set again stays as it was, in its place.
def set : Entries → Scalar → Value → Entries
  | [], k, v => [(k, v)]
  | (k', v') :: es, k, v => if k'.key = k.key then (k', v) :: es else (k', v') :: set es k v

def setAll (es upper : Entries) : Entries :=
  upper.foldl (fun es (k, v) => Entries.set es k v) es

-- Of entries with one key the last counts.
def ofList (es : List (Scalar × Value)) : Entries :=
  setAll [] es

end Entries

namespace Value

def null : Value := scalar .null

def text (t : Text) : Value := scalar (.text t)

-- The value that the keys lead to, one mapping after the other.
def at? (v : Value) : List Text → Option Value
  | [] => some v
  | k :: ks =>
    match v with
    | mapping es _ =>
      match Entries.get? es (.text k) with
      | some w => w.at? ks
      | none => none
    | _ => none

-- A dotted key leads through mappings.
def get? (v : Value) (key : Text) : Option Value :=
  v.at? (key.splitOn '.')

def getD (v : Value) (key : Text) (default : Value) : Value :=
  (v.get? key).getD default

end Value

-- A scalar in a message.
def Scalar.shown : Scalar → Text
  | null => "None".toList
  | bool true => "True".toList
  | bool false => "False".toList
  | int n => Text.ofInt n
  | number x => x.toText
  | text t | moment t => t

-- Nothing, zero and what is empty count as not given.
def Value.isGiven : Value → Bool
  | scalar .null => false
  | scalar (.bool b) => b
  | scalar (.int n) => n != 0
  | scalar (.number x) => !x.isZero
  | scalar (.text t) => !t.isEmpty
  | scalar (.moment _) => true
  | list items => !items.isEmpty
  | mapping es _ => !es.isEmpty

-- What counts as not given, in a message.
def Value.nothingShown : Value → Text
  | scalar (.text t) => Text.display t
  | scalar s => s.shown
  | list _ => ['[', ']']
  | mapping _ _ => ['\x7b', '\x7d']

end GherkinView.Settings
