import GherkinView.Text.Quote
import GherkinView.Text.Word

namespace GherkinView.Sentence

open Text

-- A step's own label stands before the first brace of its code.
def body (code : Text) : Text :=
  match code.dropWhile (· != '{') with
  | [] => code
  | _ :: r => r

-- The first literal that is not empty.
def value? (code : Text) : Option Text :=
  (literals (body code)).find? (!·.isEmpty)

def insertValue (t value : Text) : Text :=
  if (word t).isEmpty then t else word t ++ [' ', '\x22'] ++ value ++ '\x22' :: afterWord t

def splice (t code : Text) : Text :=
  match value? code with
  | some value => insertValue t value
  | none => t

end GherkinView.Sentence
