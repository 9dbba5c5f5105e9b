import GherkinView.Text.Basic
import GherkinView.Text.UnseenRange

namespace GherkinView.Text

def isUnseen (c : Char) : Bool :=
  if c.toNat < 0x80 then c.toNat < 0x20 || c.toNat == 0x7F
  else unseenRanges.any fun r => r.1 ≤ c.toNat && c.toNat ≤ r.2

-- The last `digits` hexadecimal digits of `n`.
def hex (digits n : Nat) : Text :=
  (List.range digits).reverse.map fun i => Nat.digitChar (n >>> (4 * i) % 16)

def displayChar (quote c : Char) : Text :=
  if c = quote || c = '\\' then ['\\', c]
  else if c = '\n' then ['\\', 'n']
  else if c = '\r' then ['\\', 'r']
  else if c = '\t' then ['\\', 't']
  else if !isUnseen c then [c]
  else if c.toNat < 0x100 then '\\' :: 'x' :: hex 2 c.toNat
  else if c.toNat < 0x10000 then '\\' :: 'u' :: hex 4 c.toNat
  else '\\' :: 'U' :: hex 8 c.toNat

-- Between apostrophes, or between double quotes if there is an apostrophe in the text and no double quote.
def display (t : Text) : Text :=
  let quote := if '\x27' ∈ t ∧ '\x22' ∉ t then '\x22' else '\x27'
  quote :: t.flatMap (displayChar quote) ++ [quote]

end GherkinView.Text
