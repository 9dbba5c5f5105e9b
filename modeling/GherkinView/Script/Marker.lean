import GherkinView.Text.Word

namespace GherkinView.Script.Marker

open Text

-- What may follow the test object at the start of `t`, with or without a qualifying word.
def afterObject (t : Text) : List Text :=
  let plain := after? "test".toList t
  let qualified := if (word t).isEmpty then none else after? ".test".toList (afterWord t)
  qualified.toList ++ plain.toList

def suiteModifiers : List Text :=
  ["".toList, ".only".toList, ".skip".toList, ".fixme".toList, ".serial".toList, ".parallel".toList]

def isSuite (t : Text) : Bool :=
  (afterObject t).any fun r => suiteModifiers.any fun m =>
    startsWith (".describe".toList ++ m ++ "(".toList) r

def isSetup (t : Text) : Bool :=
  (afterObject t).any (startsWith ".beforeEach(".toList)

-- Other modifiers than `only` are also called as conditions inside a case.
def isCase (t : Text) : Bool :=
  let sequenced := (after? "(0,".toList t).any fun r =>
    (afterObject (trimStart r)).any (startsWith ")(".toList)
  let direct := (afterObject t).any fun r => startsWith "(".toList r || startsWith ".only(".toList r
  sequenced || direct

-- A step may be called anywhere on its line, as in `await test.step(`, but not as the end of a
-- longer word; `afterWord` tells whether a word character stands before.
def isStep.search : Bool → Text → Bool
  | _, [] => false
  | inWord, c :: r => (!inWord && startsWith "test.step(".toList (c :: r)) || search (isWord c) r

def isStep (t : Text) : Bool :=
  isStep.search false t

def isClose (t : Text) : Bool :=
  t == ['}', ')', ';'] || t == ['}', ')']

end GherkinView.Script.Marker
