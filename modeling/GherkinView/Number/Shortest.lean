import GherkinView.Number.Binary64

namespace GherkinView.Number.Binary64

-- The numbers that read back as `mantissa * 2 ^ exponent` lie between `low` and `high`, the ends
-- included or not; all of them in units of `1 / den`.
structure Neighbourhood where
  value : Nat
  low : Nat
  high : Nat
  den : Nat
  closed : Bool

def neighbourhood (m : Nat) (e : Int) : Neighbourhood :=
  -- In quarters of the last place; below a power of two the places are half as large.
  let low := if m = twoTo 52 ∧ e > leastExponent then 4 * m - 1 else 4 * m - 2
  let closed := m % 2 == 0
  match e with
  | .ofNat k => ⟨4 * m * twoTo k, low * twoTo k, (4 * m + 2) * twoTo k, 4, closed⟩
  | .negSucc k => ⟨4 * m, low, 4 * m + 2, 4 * twoTo (k + 1), closed⟩

namespace Neighbourhood

-- Whether `num / den` reads back.
def has (n : Neighbourhood) (num den : Nat) : Bool :=
  let (x, low, high) := (num * n.den, n.low * den, n.high * den)
  if n.closed then low ≤ x && x ≤ high else low < x && x < high

-- How many places before the point the first digit of the value stands.
def places (n : Neighbourhood) : Int :=
  if n.den ≤ n.value then (Nat.toDigits 10 (n.value / n.den)).length
  else
    let size := (Nat.toDigits 10 (n.den / n.value)).length
    if n.den ≤ n.value * tenTo (size - 1) then 2 - (size : Int) else 1 - (size : Int)

-- `count` units of ten to `power`, as a fraction.
def decimal (count : Nat) (power : Int) : Nat × Nat :=
  match power with
  | .ofNat k => (count * tenTo k, 1)
  | .negSucc k => (count, tenTo (k + 1))

-- How many whole units of ten to `power` are in the value, and whether the next one up is nearer;
-- of two as near the even one counts.
def onGrid (n : Neighbourhood) (power : Int) : Nat × Bool :=
  let (num, den) := match power with
    | .ofNat k => (n.value, n.den * tenTo k)
    | .negSucc k => (n.value * tenTo (k + 1), n.den)
  let q := num / den
  (q, 2 * (num % den) > den || (2 * (num % den) == den && q % 2 == 1))

-- The count of units of ten to `power` that reads back and is nearest, if one does.
def candidate? (n : Neighbourhood) (power : Int) : Option Nat :=
  let (below, up) := n.onGrid power
  let reads := fun count => let (num, den) := decimal count power; n.has num den
  let (first, second) := if up then (below + 1, below) else (below, below + 1)
  if reads first then some first else if reads second then some second else none

end Neighbourhood

-- The digits, and how many places before the point they start. Seventeen digits always read back.
def shortest (m : Nat) (e : Int) : Text × Int :=
  let n := neighbourhood m e
  let found := (List.range 17).findSome? fun (i : Nat) =>
    let power := n.places - (i + 1)
    (n.candidate? power).map fun count => (Text.ofNat count, power)
  match found with
  | none => (['0'], 1)
  | some (digits, power) =>
    let bare := (digits.reverse.dropWhile (· == '0')).reverse
    (bare, digits.length + power)

def exponentText (n : Int) : Text :=
  let digits := Text.ofNat n.natAbs
  (if n < 0 then '-' else '+') :: List.replicate (2 - digits.length) '0' ++ digits

-- The digits with the point `places` behind their start.
def placed (digits : Text) (places : Int) : Text :=
  if -4 < places ∧ places ≤ 16 then
    if places ≤ 0 then "0.".toList ++ List.replicate (-places).toNat '0' ++ digits
    else
      let whole := digits.take places.toNat
      let rest := digits.drop places.toNat
      whole ++ List.replicate (places.toNat - whole.length) '0' ++ '.' ::
        if rest.isEmpty then ['0'] else rest
  else
    let rest := digits.drop 1
    digits.take 1 ++ (if rest.isEmpty then [] else '.' :: rest) ++ 'e' :: exponentText (places - 1)

def signText (negative : Bool) : Text :=
  if negative then ['-'] else []

-- The text has the fewest digits that read back as the number, and of those the nearest to it.
def toText : Binary64 → Text
  | notNumber => "nan".toList
  | infinite negative => signText negative ++ "inf".toList
  | finite negative m e =>
    signText negative ++
      if m = 0 then "0.0".toList else let (digits, places) := shortest m e; placed digits places

end GherkinView.Number.Binary64
