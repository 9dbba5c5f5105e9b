import GherkinView.Gherkin.Basic

namespace GherkinView.Gherkin

def Step.layout (s : Step) : Text :=
  "    ".toList ++ s.keyword.name ++ ' ' :: s.text

def backgroundLayout (steps : List Step) : List Text :=
  "  Background:".toList :: steps.map Step.layout ++ [[]]

def Scenario.layout (s : Scenario) : List Text :=
  ("  Scenario: ".toList ++ s.name) :: s.steps.map Step.layout ++ [[]]

def Feature.layout (f : Feature) : List Text :=
  ("Feature: ".toList ++ f.name) :: [] ::
    (f.background.map backgroundLayout).getD [] ++ f.scenarios.flatMap Scenario.layout

def Document.layout (d : Document) : List Text :=
  d.features.flatMap Feature.layout

def Document.render (d : Document) : Text :=
  Text.trim (Text.unlines d.layout)

end GherkinView.Gherkin
