import GherkinView.Settings.Value
import GherkinView.Settings.Variables

namespace GherkinView.Settings

mutual

-- The upper layer wins; where both have a mapping, they are merged key by key, into a new mapping.
def mergeValue (lower : Value) : Value → Value
  | .mapping upper a =>
    match lower with
    | .mapping lower _ => .mapping (merge lower upper)
    | _ => .mapping upper a
  | .list items => .list items
  | .scalar s => .scalar s

def merge : (base upper : Entries) → Entries
  | base, [] => base
  | base, (k, v) :: upper =>
    let merged := match base.get? k with
      | some lower => mergeValue lower v
      | none => v
    merge (base.set k merged) upper

end

mutual

-- Puts other entries into a mapping, wherever it stands.
def Value.refill (a : Nat) (new : Entries) : Value → Value
  | .scalar s => .scalar s
  | .list items => .list (refillItems a new items)
  | .mapping es b => if b = some a then .mapping new b else .mapping (refillEntries a new es) b

def refillItems (a : Nat) (new : Entries) : List Value → List Value
  | [] => []
  | v :: items => v.refill a new :: refillItems a new items

def refillEntries (a : Nat) (new : Entries) : Entries → Entries
  | [] => []
  | (k, v) :: es => (k, v.refill a new) :: refillEntries a new es

end

-- What is below a section and one key of it is replaced as a whole. The section itself stays the mapping that
-- it is, so that this is seen wherever it stands.
def overrideSection (base : Entries) (k : Scalar) (v : Value) : Entries :=
  match base.get? k, v with
  | some (.mapping lower none), .mapping upper _ => base.set k (.mapping (Entries.setAll lower upper))
  | some (.mapping lower (some a)), .mapping upper _ => refillEntries a (Entries.setAll lower upper) base
  | _, v => base.set k v

def override (base overrides : Entries) : Entries :=
  overrides.foldl (fun base (k, v) => overrideSection base k v) base

mutual

-- The value by itself, with no mapping shared.
def Value.plain : Value → Value
  | .scalar s => .scalar s
  | .list items => .list (plainItems items)
  | .mapping es _ => .mapping (plainEntries es)

def plainItems : List Value → List Value
  | [] => []
  | v :: items => v.plain :: plainItems items

def plainEntries : Entries → Entries
  | [] => []
  | (k, v) :: es => (k, v.plain) :: plainEntries es

end

-- The name in a text of the form `${name}`.
def referenced? (t : Text) : Option Text :=
  match t with
  | '$' :: '{' :: r => if r.getLast? = some '}' then some r.dropLast else none
  | _ => none

def substituteText (vs : Variables) (t : Text) : Text :=
  ((referenced? t).bind vs.get?).getD t

mutual

-- Keys stay as they are, and what a variable holds is not looked into.
def substitute (vs : Variables) : Value → Value
  | .scalar (.text t) => .text (substituteText vs t)
  | .scalar s => .scalar s
  | .list items => .list (substituteItems vs items)
  | .mapping es _ => .mapping (substituteEntries vs es)

def substituteItems (vs : Variables) : List Value → List Value
  | [] => []
  | v :: items => substitute vs v :: substituteItems vs items

def substituteEntries (vs : Variables) : Entries → Entries
  | [] => []
  | (k, v) :: es => (k, substitute vs v) :: substituteEntries vs es

end

end GherkinView.Settings
