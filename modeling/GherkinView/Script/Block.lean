import GherkinView.Text.Basic

namespace GherkinView.Script

-- The change of depth that a line makes.
def netBraces (line : Text) : Int :=
  line.count '{' - line.count '}'

namespace Block

-- `none` until the first opening brace; closing braces before it do not count.
def depth : Option Int → Char → Option Int
  | none, c => if c = '{' then some 1 else none
  | some d, c => some (if c = '{' then d + 1 else if c = '}' then d - 1 else d)

def depthAfter (d : Option Int) (line : Text) : Option Int :=
  line.foldl depth d

def takeLines : Option Int → List Text → List Text
  | _, [] => []
  | d, line :: rest =>
    match depthAfter d line with
    | none => takeLines none rest
    | some k => line :: if k ≤ 0 then [] else takeLines (some k) rest

end Block

-- The first block that opens in `ls`, without blanks around it; empty when none opens.
def captureBlock (ls : List Text) : Text :=
  Text.trim (Text.unlines (Block.takeLines none ls))

-- A negative start counts from the end, as far as there are lines.
def captureBlockAt (ls : List Text) (start : Int) : Text :=
  captureBlock (ls.drop (if start < 0 then start + ls.length else start).toNat)

end GherkinView.Script
