import GherkinView.Text.Basic

namespace GherkinView.Text

-- Case matters as far as it meets ASCII: a character whose image holds an ASCII letter is mapped to it, every other one
-- outside ASCII stays as it is. In lower case, these are the Kelvin sign and the capital I with a dot.
def lowerChar (c : Char) : Text :=
  if c = '\u212a' then ['k'] else if c = '\u0130' then ['i', '\u0307'] else [c.toLower]

def lower (t : Text) : Text :=
  t.flatMap lowerChar

def upperChar (c : Char) : Text :=
  match c.toNat with
  | 0xDF => ['S', 'S']
  | 0x131 => ['I']
  | 0x149 => ['\u02bc', 'N']
  | 0x17F => ['S']
  | 0x1F0 => ['J', '\u030c']
  | 0x1E96 => ['H', '\u0331']
  | 0x1E97 => ['T', '\u0308']
  | 0x1E98 => ['W', '\u030a']
  | 0x1E99 => ['Y', '\u030a']
  | 0x1E9A => ['A', '\u02be']
  | 0xFB00 => ['F', 'F']
  | 0xFB01 => ['F', 'I']
  | 0xFB02 => ['F', 'L']
  | 0xFB03 => ['F', 'F', 'I']
  | 0xFB04 => ['F', 'F', 'L']
  | 0xFB05 => ['S', 'T']
  | 0xFB06 => ['S', 'T']
  | _ => [c.toUpper]

def upper (t : Text) : Text :=
  t.flatMap upperChar

-- The lower case letter that `c` stands for when case is ignored: both kinds of dotless and dotted
-- i, the long s and the Kelvin sign count as their ASCII letters.
def foldChar (c : Char) : Char :=
  if c = '\u212a' then 'k'
  else if c = '\u0130' || c = '\u0131' then 'i'
  else if c = '\u017f' then 's'
  else c.toLower

-- What follows `lead` in `t`, if `t` begins with it up to case; `lead` is in lower case.
def afterFolded? : Text → Text → Option Text
  | [], t => some t
  | _ :: _, [] => none
  | l :: ls, c :: r => if foldChar c = l then afterFolded? ls r else none

end GherkinView.Text
