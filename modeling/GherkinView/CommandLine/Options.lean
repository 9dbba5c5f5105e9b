import GherkinView.Text.Basic

namespace GherkinView.CommandLine

-- An option is given by its name behind two dashes or by its letter behind one.
structure OptionKind where
  name : Text
  letter : Option Char := none
  takesValue : Bool := false
  deriving DecidableEq

structure Given where
  name : Text
  value : Text := []
  deriving DecidableEq

-- The options in the order they are given in, and the other words.
structure Words where
  options : List Given := []
  others : List Text := []
  deriving DecidableEq

namespace Words

def has (ws : Words) (name : Text) : Bool :=
  ws.options.any (·.name == name)

-- An option that is given again counts the last time.
def value? (ws : Words) (name : Text) : Option Text :=
  (ws.options.reverse.find? (·.name == name)).map (·.value)

def add (ws : Words) (options : List Given) : Words :=
  { ws with options := options ++ ws.options }

end Words

end GherkinView.CommandLine
