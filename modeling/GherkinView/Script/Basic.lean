import GherkinView.Text.Basic

namespace GherkinView

structure Script.Step where
  label : Text
  code : Text := []
  line : Int := 0
  deriving DecidableEq

structure Script.Case where
  name : Text
  steps : List Script.Step := []
  line : Int := 0
  deriving DecidableEq

structure Script.Suite where
  name : Text
  cases : List Script.Case := []
  line : Int := 0
  background : Option (List Script.Step) := none
  deriving DecidableEq

structure Script where
  suites : List Script.Suite := []
  deriving DecidableEq

end GherkinView
