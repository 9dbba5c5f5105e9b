import GherkinView.Number.Reading
import GherkinView.Settings.Value
import GherkinView.Yaml.Cursor

namespace GherkinView.Yaml

open Number Settings

def nullNames : List Text :=
  ["".toList, "~".toList, "null".toList, "Null".toList, "NULL".toList]

def trueNames : List Text :=
  ["yes".toList, "Yes".toList, "YES".toList, "true".toList, "True".toList, "TRUE".toList,
    "on".toList, "On".toList, "ON".toList]

def falseNames : List Text :=
  ["no".toList, "No".toList, "NO".toList, "false".toList, "False".toList, "FALSE".toList,
    "off".toList, "Off".toList, "OFF".toList]

def infinityNames : List Text := [".inf".toList, ".Inf".toList, ".INF".toList]

def notNumberNames : List Text := [".nan".toList, ".NaN".toList, ".NAN".toList]

def isDigitOrLow (c : Char) : Bool := isDigit c || c == '_'

def withoutLows (t : Text) : Text := t.filter (· != '_')

def digitValue (c : Char) : Nat :=
  if isDigit c then c.toNat - '0'.toNat else c.toLower.toNat - 'a'.toNat + 10

def inBase (base : Nat) (t : Text) : Nat :=
  (withoutLows t).foldl (fun n c => base * n + digitValue c) 0

-- Digits with low lines among them, the first a digit.
def isCount (t : Text) : Bool :=
  t.head?.any isDigit && t.all isDigitOrLow

-- A place of sixty: one digit, or two below sixty.
def isSixtieth (t : Text) : Bool :=
  match t with
  | [c] => isDigit c
  | [c, d] => '0' ≤ c && c ≤ '5' && isDigit d
  | _ => false

def ofSixtieths (ts : List Text) : Nat :=
  ts.foldl (fun n t => 60 * n + inBase 10 t) 0

def isHexDigit (c : Char) : Bool :=
  isDigit c || ('a' ≤ c && c ≤ 'f') || ('A' ≤ c && c ≤ 'F')

-- Characters of a kind, with low lines among them.
def isRun (kind : Char → Bool) (t : Text) : Bool :=
  !t.isEmpty && t.all fun c => kind c || c == '_'

-- Whole numbers without their sign: binary, octal, hexadecimal, decimal, or in places of sixty.
def readNat? (t : Text) : Option Nat :=
  match t with
  | '0' :: 'b' :: r => if isRun (fun c => c == '0' || c == '1') r then some (inBase 2 r) else none
  | '0' :: 'x' :: r => if isRun isHexDigit r then some (inBase 16 r) else none
  | ['0'] => some 0
  | '0' :: r => if isRun (fun c => '0' ≤ c && c ≤ '7') r then some (inBase 8 r) else none
  | _ =>
    if isCount t then some (inBase 10 t)
    else match t.splitOn ':' with
      | whole :: place :: places =>
        if isCount whole && (place :: places).all isSixtieth then
          some (ofSixtieths (whole :: place :: places))
        else none
      | _ => none

-- A point is needed, and an exponent must have a sign.
def readFraction? (signed negative : Bool) (t : Text) : Option Binary64 := do
  let whole := t.takeWhile isDigitOrLow
  let r ← match t.dropWhile isDigitOrLow with
    | '.' :: r => some r
    | _ => none
  let places := r.takeWhile isDigitOrLow
  let exponent := r.dropWhile isDigitOrLow
  let opened := if whole.isEmpty then !signed && places.head?.any isDigit else whole.head?.any isDigit
  let exponentSigned := match exponent with
    | [] => true
    | _ :: c :: _ => c == '+' || c == '-'
    | [_] => false
  if !opened || !exponentSigned then none
  readUnsigned? negative (withoutLows whole ++ '.' :: withoutLows places ++ exponent)

-- The year, the month and the day of a date.
def readDate? (t : Text) : Option (Nat × Nat × Nat) :=
  let (year, month, day) := (t.take 4, (t.drop 5).take 2, t.drop 8)
  if t.length == 10 && (year ++ month ++ day).all isDigit && t[4]? == some '-' && t[7]? == some '-' then
    some (inBase 10 year, inBase 10 month, inBase 10 day)
  else none

def daysIn (year month : Nat) : Nat :=
  if month == 2 then if year % 4 == 0 && (year % 100 != 0 || year % 400 == 0) then 29 else 28
  else if [4, 6, 9, 11].contains month then 30
  else 31

def dateFault? (year month day : Nat) : Option Text :=
  if year == 0 then some "year 0 is out of range".toList
  else if month == 0 || 12 < month then some "month must be in 1..12".toList
  else if day == 0 || daysIn year month < day then some "day is out of range for month".toList
  else none

def noDigits (base : Nat) : Text :=
  "invalid literal for int() with base ".toList ++ Text.ofNat base ++ ": ''".toList

def maxDigits : Nat := 4300

def tooManyDigits (n : Nat) : Text :=
  "Exceeds the limit (".toList ++ Text.ofNat maxDigits ++
    " digits) for integer string conversion: value has ".toList ++ Text.ofNat n ++
    " digits; use sys.set_int_max_str_digits() to increase the limit".toList

-- What has the form of a whole number may have no digits, or too many if they are decimal.
def natFault? (t : Text) : Option Text :=
  match t with
  | '0' :: 'b' :: r => if isRun (fun _ => false) r then some (noDigits 2) else none
  | '0' :: 'x' :: r => if isRun (fun _ => false) r then some (noDigits 16) else none
  | '0' :: _ => none
  | _ =>
    let n := (withoutLows t).length
    if isCount t && maxDigits < n then some (tooManyDigits n) else none

-- The value of a plain scalar, or what is wrong with it though its form is right. Two plain scalars stand for
-- something else than a value.
def readPlain? (t : Text) : Option (Except Text Scalar) :=
  let (negative, r) := splitSign t
  let signed := t.length != r.length
  if t = "=".toList || t = "<<".toList then none
  else match readDate? t, natFault? r with
    | some (year, month, day), _ => some <| match dateFault? year month day with
      | some message => .error message
      | none => .ok (.moment t)
    | none, some message => some (.error message)
    | none, none => some <| .ok <|
      if nullNames.contains t then .null
      else if trueNames.contains t then .bool true
      else if falseNames.contains t then .bool false
      else if infinityNames.contains r then .number (.infinite negative)
      else if !signed && notNumberNames.contains r then .number .notNumber
      else match readFraction? signed negative r, readNat? r with
        | some x, _ => .number x
        | none, some n => .int (if negative then -(n : Int) else n)
        | none, none => .text t

end GherkinView.Yaml
