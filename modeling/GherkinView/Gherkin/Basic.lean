import GherkinView.Text.Basic

namespace GherkinView.Gherkin

-- What a step is to its scenario: the state it starts from, what is done, what comes of it, or more
-- of the step before.
inductive Keyword
  | precondition
  | action
  | outcome
  | continuation
  deriving DecidableEq

structure Step where
  keyword : Keyword
  text : Text
  line : Int := 0
  deriving DecidableEq

structure Scenario where
  name : Text
  steps : List Step := []
  line : Int := 0
  deriving DecidableEq

-- A background that is missing is not the same as one without steps.
structure Feature where
  name : Text
  scenarios : List Scenario := []
  line : Int := 0
  background : Option (List Step) := none
  deriving DecidableEq

structure Document where
  features : List Feature := []
  deriving DecidableEq

namespace Keyword

def name : Keyword → Text
  | precondition => "Given".toList
  | action => "When".toList
  | outcome => "Then".toList
  | continuation => "And".toList

def all : List Keyword := [precondition, action, outcome, continuation]

def ofName? (t : Text) : Option Keyword :=
  all.find? (·.name == t)

end Keyword

def Step.unplaced (s : Step) : Step := { s with line := 0 }

def Scenario.unplaced (s : Scenario) : Scenario :=
  { s with line := 0, steps := s.steps.map Step.unplaced }

def Feature.unplaced (f : Feature) : Feature :=
  { f with
    line := 0
    scenarios := f.scenarios.map Scenario.unplaced
    background := f.background.map (·.map Step.unplaced) }

-- The document without its lines: two documents tell the same when these are equal.
def Document.unplaced (d : Document) : Document :=
  ⟨d.features.map Feature.unplaced⟩

end GherkinView.Gherkin
