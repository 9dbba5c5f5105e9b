namespace GherkinView

abbrev Text := List Char

namespace Text

-- The pieces of `t` between its line feeds; there is always at least one.
def lines (t : Text) : List Text :=
  List.splitOn '\n' t

def unlines (ls : List Text) : Text :=
  List.intercalate ['\n'] ls

-- The white space of Unicode together with the four separators U+001C to U+001F.
def isBlank (c : Char) : Bool :=
  let n := c.toNat
  (0x09 ≤ n && n ≤ 0x0D) || (0x1C ≤ n && n ≤ 0x20) || n == 0x85 || n == 0xA0 || n == 0x1680 ||
    (0x2000 ≤ n && n ≤ 0x200A) || n == 0x2028 || n == 0x2029 || n == 0x202F || n == 0x205F ||
    n == 0x3000

def trimStart (t : Text) : Text :=
  t.dropWhile isBlank

def trimEnd (t : Text) : Text :=
  (t.reverse.dropWhile isBlank).reverse

def trim (t : Text) : Text :=
  trimEnd (trimStart t)

-- What follows `lead` in `t`, if `t` begins with it.
def after? (lead t : Text) : Option Text :=
  lead.isPrefixOf? t

def startsWith (lead t : Text) : Bool :=
  lead.isPrefixOf t

-- Whether `needle` occurs somewhere in the text.
def contains (needle : Text) : Text → Bool
  | [] => needle.isEmpty
  | c :: r => startsWith needle (c :: r) || contains needle r

-- What precedes the last `c`, and what follows it.
def cutLast? (c : Char) : Text → Option (Text × Text)
  | [] => none
  | d :: r =>
    match cutLast? c r with
    | some (before, rest) => some (d :: before, rest)
    | none => if d = c then some ([], r) else none

def ofNat (n : Nat) : Text :=
  Nat.toDigits 10 n

def ofInt : Int → Text
  | .ofNat n => ofNat n
  | .negSucc n => '-' :: ofNat (n + 1)

end Text
end GherkinView
