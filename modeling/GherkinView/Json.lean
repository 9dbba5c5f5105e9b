import GherkinView.Text.Basic

namespace GherkinView

inductive Json
  | number (n : Int)
  | text (t : Text)
  | array (items : List Json)
  | object (members : List (Text × Json))

namespace Json

def hexDigit (n : Nat) : Char :=
  Nat.digitChar (n % 16)

def escapeChar (c : Char) : Text :=
  match c with
  | '\x22' => ['\\', '\x22']
  | '\\' => ['\\', '\\']
  | '\n' => ['\\', 'n']
  | '\r' => ['\\', 'r']
  | '\t' => ['\\', 't']
  | '\x08' => ['\\', 'b']
  | '\x0c' => ['\\', 'f']
  | c =>
    if c.toNat < 0x20 then ['\\', 'u', '0', '0', hexDigit (c.toNat / 16), hexDigit c.toNat] else [c]

def quoted (t : Text) : Text :=
  '\x22' :: t.flatMap escapeChar ++ ['\x22']

def newline (depth : Nat) : Text :=
  '\n' :: List.replicate (2 * depth) ' '

-- Items one below the other, one level deeper than the brackets around them.
def bracketed (opening closing : Char) (depth : Nat) : List Text → Text
  | [] => [opening, closing]
  | items =>
    opening :: newline (depth + 1) ++ List.intercalate (',' :: newline (depth + 1)) items ++
      newline depth ++ [closing]

-- `depth` is the level that the value stands on.
def pretty (depth : Nat) : Json → Text
  | number n => Text.ofInt n
  | text t => quoted t
  | array items => bracketed '[' ']' depth (prettyItems items)
  | object members => bracketed '{' '}' depth (prettyMembers members)
where
  prettyItems : List Json → List Text
    | [] => []
    | j :: js => j.pretty (depth + 1) :: prettyItems js
  prettyMembers : List (Text × Json) → List Text
    | [] => []
    | (k, j) :: ms => (quoted k ++ [':', ' '] ++ j.pretty (depth + 1)) :: prettyMembers ms

end Json
end GherkinView
