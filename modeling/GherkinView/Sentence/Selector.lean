import GherkinView.Text.Word

namespace GherkinView.Sentence

open Text

structure SelectorKind where
  mark : Char
  opens : Char → Bool
  noun : Text

namespace SelectorKind

def field : SelectorKind where
  mark := '#'
  opens c := isWord c || c == '-'
  noun := "field".toList

def element : SelectorKind where
  mark := '.'
  opens c := c.isAlpha || c == '_'
  noun := "element".toList

end SelectorKind

def isNameChar (c : Char) : Bool :=
  isWord c || c == '-'

-- A selector may stand behind `c`.
def admitsSelector (c : Char) : Bool :=
  isBlank c || c == '\x22'

def SelectorKind.phrase (k : SelectorKind) (name : Text) : Text :=
  "the ".toList ++ name ++ ' ' :: k.noun

-- `admits` tells whether a selector may stand at the start of the text.
def describeFrom (k : SelectorKind) (admits : Bool) : Text → Text
  | [] => []
  | c :: r =>
    if admits && c == k.mark && (r.head?.any k.opens) then
      k.phrase (r.takeWhile isNameChar) ++ r.dropWhile isNameChar
    else c :: describeFrom k (admitsSelector c) r

-- Only the first selector of a kind is put into words.
def describe (k : SelectorKind) (t : Text) : Text :=
  describeFrom k true t

def describeSelectors (t : Text) : Text :=
  describe .element (describe .field t)

end GherkinView.Sentence
