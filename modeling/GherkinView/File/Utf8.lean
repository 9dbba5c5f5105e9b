import GherkinView.Text.Display

namespace GherkinView.File.Utf8

-- An octet that starts no character, or a character that breaks off before an octet that does not continue it, or at
-- the end.
inductive Fault
  | invalidStart
  | invalidContinuation
  | unexpectedEnd
  deriving DecidableEq

-- `length` octets from `start` on are at fault; `octet` is the first of them.
structure Failure where
  fault : Fault
  octet : UInt8
  start : Nat
  length : Nat
  deriving DecidableEq

namespace Failure

def reason (f : Failure) : Text :=
  match f.fault with
  | .invalidStart => "invalid start byte".toList
  | .invalidContinuation => "invalid continuation byte".toList
  | .unexpectedEnd => "unexpected end of data".toList

def place (f : Failure) : Text :=
  if f.length = 1 then
    "byte 0x".toList ++ Text.hex 2 f.octet.toNat ++ " in position ".toList ++ Text.ofNat f.start
  else
    "bytes in position ".toList ++ Text.ofNat f.start ++ '-' :: Text.ofNat (f.start + f.length - 1)

def message (f : Failure) : Text :=
  "'utf-8' codec can't decode ".toList ++ f.place ++ ": ".toList ++ f.reason

end Failure

-- A character of which `length` octets have been read: how many it still owes, and between which
-- bounds the next one lies.
structure Pending where
  octet : UInt8
  start : Nat
  length : Nat
  owed : Nat
  low : UInt8
  high : UInt8
  value : Nat

def Pending.fail (p : Pending) (fault : Fault) : Failure :=
  ⟨fault, p.octet, p.start, p.length⟩

def begin? (octet : UInt8) (start : Nat) : Option Pending :=
  let n := octet.toNat
  if 0xC2 ≤ n ∧ n ≤ 0xDF then some ⟨octet, start, 1, 1, 0x80, 0xBF, n - 0xC0⟩
  else if 0xE0 ≤ n ∧ n ≤ 0xEF then
    some ⟨octet, start, 1, 2, if n = 0xE0 then 0xA0 else 0x80, if n = 0xED then 0x9F else 0xBF, n - 0xE0⟩
  else if 0xF0 ≤ n ∧ n ≤ 0xF4 then
    some ⟨octet, start, 1, 3, if n = 0xF0 then 0x90 else 0x80, if n = 0xF4 then 0x8F else 0xBF, n - 0xF0⟩
  else none

def Pending.continue? (p : Pending) (octet : UInt8) : Option Pending :=
  if p.low ≤ octet ∧ octet ≤ p.high then
    some { p with
      length := p.length + 1, owed := p.owed - 1, low := 0x80, high := 0xBF
      value := p.value * 64 + (octet.toNat - 0x80) }
  else none

-- `done` is what has been read, last character first, and `position` where the next octet stands.
def decodeFrom (position : Nat) (done : Text) : Option Pending → List UInt8 → Except Failure Text
  | none, [] => .ok done.reverse
  | some p, [] => .error (p.fail .unexpectedEnd)
  | none, b :: bs =>
    if b < 0x80 then decodeFrom (position + 1) (Char.ofNat b.toNat :: done) none bs
    else match begin? b position with
      | some p => decodeFrom (position + 1) done (some p) bs
      | none => .error ⟨.invalidStart, b, position, 1⟩
  | some p, b :: bs =>
    match p.continue? b with
    | none => .error (p.fail .invalidContinuation)
    | some p =>
      if p.owed = 0 then decodeFrom (position + 1) (Char.ofNat p.value :: done) none bs
      else decodeFrom (position + 1) done (some p) bs

def decode (bytes : List UInt8) : Except Failure Text :=
  decodeFrom 0 [] none bytes

def encode (t : Text) : List UInt8 :=
  t.flatMap String.utf8EncodeChar

end GherkinView.File.Utf8

namespace GherkinView.File

-- Carriage returns end lines too, alone or before a line feed.
def normalizeNewlines : Text → Text
  | '\r' :: '\n' :: r => '\n' :: normalizeNewlines r
  | '\r' :: r => '\n' :: normalizeNewlines r
  | c :: r => c :: normalizeNewlines r
  | [] => []

end GherkinView.File
