import GherkinView.Gherkin.Basic
import GherkinView.Script.Basic
import GherkinView.Sentence.Telling

namespace GherkinView.Gherkin

def actionWords : List Text :=
  ["click".toList, "enter".toList, "fill".toList, "type".toList, "submit".toList,
    "navigate".toList, "go to".toList]

def assertionWords : List Text :=
  ["verify".toList, "check".toList, "should".toList, "expect".toList, "assert".toList]

-- Whether one of `words` occurs in the label, in whatever case.
def mentions (words : List Text) (label : Text) : Bool :=
  words.any fun w => Text.contains w (Text.lower label)

namespace Keyword

def inBackground (index : Int) : Keyword :=
  if index = 0 then precondition else continuation

-- A label with an action word and an assertion word tells an action.
def inScenario (label : Text) (index : Int) : Keyword :=
  if index = 0 then precondition
  else if mentions assertionWords label && !mentions actionWords label then outcome
  else if index = 1 then action
  else continuation

end Keyword

def Step.ofScript (keyword : Text → Int → Keyword) (s : Script.Step) (index : Int) : Step :=
  ⟨keyword s.label index, Sentence.tell s.label s.code, s.line⟩

def tellSteps (keyword : Text → Int → Keyword) (steps : List Script.Step) : List Step :=
  steps.mapIdx fun i s => Step.ofScript keyword s i

def backgroundSteps (steps : List Script.Step) : List Step :=
  tellSteps (fun _ => Keyword.inBackground) steps

def scenarioSteps (steps : List Script.Step) : List Step :=
  tellSteps Keyword.inScenario steps

def Scenario.ofCase (c : Script.Case) : Scenario :=
  ⟨c.name, scenarioSteps c.steps, c.line⟩

def Feature.ofSuite (s : Script.Suite) : Feature :=
  ⟨s.name, s.cases.map Scenario.ofCase, s.line, s.background.map backgroundSteps⟩

def Document.ofScript (s : Script) : Document :=
  ⟨s.suites.map Feature.ofSuite⟩

end GherkinView.Gherkin
