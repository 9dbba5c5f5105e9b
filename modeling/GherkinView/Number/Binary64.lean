import GherkinView.Text.Basic

namespace GherkinView.Number

def twoTo (k : Nat) : Nat := Nat.pow 2 k

def tenTo (k : Nat) : Nat := Nat.pow 10 k

-- Numbers of the binary64 format, exactly: a finite one is a whole number below 2 ^ 53 times a power of two not
-- below 2 ^ -1074.
inductive Binary64
  | finite (negative : Bool) (mantissa : Nat) (exponent : Int)
  | infinite (negative : Bool)
  | notNumber
  deriving DecidableEq

namespace Binary64

def leastExponent : Int := -1074

def greatestExponent : Int := 971

def zero (negative : Bool) : Binary64 :=
  finite negative 0 leastExponent

def isZero : Binary64 → Bool
  | finite _ m _ => m == 0
  | _ => false

-- The nearest whole number to `num / den`, the even one of two.
def roundDiv (num den : Nat) : Nat :=
  let q := num / den
  let twice := 2 * (num % den)
  if twice < den || (twice == den && q % 2 == 0) then q else q + 1

-- `num / den` in units of 2 ^ `e`.
def inUnits (num den : Nat) (e : Int) : Nat :=
  match e with
  | .ofNat k => roundDiv num (den * twoTo k)
  | .negSucc k => roundDiv (num * twoTo (k + 1)) den

-- The nearest number to the fraction `num / den`, which is not zero.
def ofFraction (negative : Bool) (num den : Nat) : Binary64 :=
  let e := max leastExponent ((num.log2 : Int) - den.log2 - 53)
  let (m, e) :=
    if inUnits num den e < twoTo 53 then (inUnits num den e, e) else (inUnits num den (e + 1), e + 1)
  let (m, e) := if m = twoTo 53 then (twoTo 52, e + 1) else (m, e)
  if e > greatestExponent then infinite negative else finite negative m e

-- The nearest number to `digits * 10 ^ power`. Far outside of the format nothing needs rounding.
def ofDecimal (negative : Bool) (digits : Nat) (power : Int) : Binary64 :=
  let size := (Nat.toDigits 10 digits).length + power
  if digits = 0 || size < -400 then zero negative
  else if size > 400 then infinite negative
  else match power with
    | .ofNat k => ofFraction negative (digits * tenTo k) 1
    | .negSucc k => ofFraction negative digits (tenTo (k + 1))

def ofInt (n : Int) : Binary64 :=
  ofDecimal (n < 0) n.natAbs 0

-- The whole number that this is, if it is one.
def toInt? : Binary64 → Option Int
  | finite negative m e =>
    let n? := match e with
      | .ofNat k => some (m * twoTo k)
      | .negSucc k => if m % twoTo (k + 1) = 0 then some (m / twoTo (k + 1)) else none
    n?.map fun n => if negative then -(n : Int) else n
  | _ => none

end Binary64
end GherkinView.Number
