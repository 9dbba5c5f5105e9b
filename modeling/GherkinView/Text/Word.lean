import GherkinView.Text.Basic
import GherkinView.Text.WordRange

namespace GherkinView.Text

def isWord (c : Char) : Bool :=
  if c.toNat < 0x80 then c.isAlphanum || c == '_'
  else wordRanges.any fun r => r.1 ≤ c.toNat && c.toNat ≤ r.2

-- The longest run of word characters that `t` begins with.
def word (t : Text) : Text :=
  t.takeWhile isWord

def afterWord (t : Text) : Text :=
  t.dropWhile isWord

end GherkinView.Text
