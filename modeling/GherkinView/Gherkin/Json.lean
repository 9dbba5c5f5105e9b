import GherkinView.Gherkin.Basic
import GherkinView.Json

namespace GherkinView.Gherkin

def Step.toJson (s : Step) : Json :=
  .object [("keyword".toList, .text s.keyword.name), ("text".toList, .text s.text),
    ("line".toList, .number s.line)]

def Scenario.toJson (s : Scenario) : Json :=
  .object [("name".toList, .text s.name), ("line".toList, .number s.line),
    ("steps".toList, .array (s.steps.map Step.toJson))]

def Feature.toJson (f : Feature) : Json :=
  let background := f.background.map fun steps => ("background".toList, Json.array (steps.map Step.toJson))
  .object ([("name".toList, .text f.name), ("line".toList, .number f.line),
    ("scenarios".toList, .array (f.scenarios.map Scenario.toJson))] ++ background.toList)

def Document.toJson (d : Document) : Json :=
  .object [("features".toList, .array (d.features.map Feature.toJson))]

end GherkinView.Gherkin
