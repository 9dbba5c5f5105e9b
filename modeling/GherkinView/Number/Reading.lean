import GherkinView.Number.Binary64
import GherkinView.Text.Case

namespace GherkinView.Number

-- The value of decimal digits.
def ofDigits (t : Text) : Nat :=
  t.foldl (fun n c => 10 * n + (c.toNat - '0'.toNat)) 0

def isDigit (c : Char) : Bool :=
  c.isDigit

-- Removes low lines that stand between two digits; any other one makes the text no number.
def joinDigits : Bool → Text → Option Text
  | _, [] => some []
  | afterDigit, '_' :: r =>
    if afterDigit && r.head?.any isDigit then joinDigits false r else none
  | _, c :: r => (joinDigits (isDigit c) r).map (c :: ·)

def splitSign : Text → Bool × Text
  | '-' :: r => (true, r)
  | '+' :: r => (false, r)
  | r => (false, r)

def readExponent? (t : Text) : Option Int :=
  match t with
  | [] => some 0
  | c :: r =>
    let (negative, digits) := splitSign r
    if (c == 'e' || c == 'E') && !digits.isEmpty && digits.all isDigit then
      some (if negative then -(ofDigits digits : Int) else ofDigits digits)
    else none

-- Digits with or without a point, then an exponent or nothing.
def readUnsigned? (negative : Bool) (t : Text) : Option Binary64 := do
  let whole := t.takeWhile isDigit
  let r := t.dropWhile isDigit
  let (places, r) := match r with
    | '.' :: r => (r.takeWhile isDigit, r.dropWhile isDigit)
    | r => ([], r)
  if whole.isEmpty && places.isEmpty then none
  let exponent ← readExponent? r
  return .ofDecimal negative (ofDigits (whole ++ places)) (exponent - places.length)

-- Blanks may stand around. Infinity and what is not a number have names.
def read? (t : Text) : Option Binary64 := do
  let (negative, r) := splitSign (Text.trim t)
  let name := Text.lower r
  if name = "inf".toList || name = "infinity".toList then return .infinite negative
  if name = "nan".toList then return .notNumber
  readUnsigned? negative (← joinDigits false r)

end GherkinView.Number
