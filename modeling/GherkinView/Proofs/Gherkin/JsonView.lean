import GherkinView.Gherkin.Json

namespace GherkinView

namespace Json

def member? (key : Text) : Json → Option Json
  | object members => members.lookup key
  | _ => none

def text? : Json → Option Text
  | text t => some t
  | _ => none

def number? : Json → Option Int
  | number n => some n
  | _ => none

-- The items of an array, each read by `read?`.
def items? {α} (read? : Json → Option α) : Json → Option (List α)
  | array items => items.mapM read?
  | _ => none

theorem items?_map {α} {read? : Json → Option α} {write : α → Json} (h : ∀ a, read? (write a) = some a)
    (as : List α) : items? read? (.array (as.map write)) = some as := by
  induction as
  case nil => rfl
  case cons a as hi => simp_all [items?]

end Json

namespace Gherkin

open Json

def Step.ofJson? (j : Json) : Option Step := do
  let name ← (← j.member? "keyword".toList).text?
  let text ← (← j.member? "text".toList).text?
  let line ← (← j.member? "line".toList).number?
  return ⟨← Keyword.ofName? name, text, line⟩

def Scenario.ofJson? (j : Json) : Option Scenario := do
  let name ← (← j.member? "name".toList).text?
  let line ← (← j.member? "line".toList).number?
  let steps ← (← j.member? "steps".toList).items? Step.ofJson?
  return ⟨name, steps, line⟩

def Feature.ofJson? (j : Json) : Option Feature := do
  let name ← (← j.member? "name".toList).text?
  let line ← (← j.member? "line".toList).number?
  let scenarios ← (← j.member? "scenarios".toList).items? Scenario.ofJson?
  let background ← (j.member? "background".toList).mapM (items? Step.ofJson?)
  return ⟨name, scenarios, line, background⟩

def Document.ofJson? (j : Json) : Option Document := do
  let features ← (← j.member? "features".toList).items? Feature.ofJson?
  return ⟨features⟩

theorem Keyword.ofName?_name (k : Keyword) : ofName? k.name = some k := by
  cases k <;> decide

theorem Step.ofJson?_toJson (s : Step) : ofJson? s.toJson = some s := by
  have hk : s.toJson.member? "keyword".toList = some (.text s.keyword.name) := rfl
  have ht : s.toJson.member? "text".toList = some (.text s.text) := rfl
  have hl : s.toJson.member? "line".toList = some (.number s.line) := rfl
  rw [ofJson?, hk, ht, hl]
  simp [Json.text?, Json.number?, Keyword.ofName?_name]

theorem Scenario.ofJson?_toJson (s : Scenario) : ofJson? s.toJson = some s := by
  have hn : s.toJson.member? "name".toList = some (.text s.name) := rfl
  have hl : s.toJson.member? "line".toList = some (.number s.line) := rfl
  have hs : s.toJson.member? "steps".toList = some (.array (s.steps.map Step.toJson)) := rfl
  rw [ofJson?, hn, hl, hs]
  simp [Json.text?, Json.number?, items?_map Step.ofJson?_toJson]

theorem Feature.ofJson?_toJson (f : Feature) : ofJson? f.toJson = some f := by
  have hn : f.toJson.member? "name".toList = some (.text f.name) := rfl
  have hl : f.toJson.member? "line".toList = some (.number f.line) := rfl
  have hs : f.toJson.member? "scenarios".toList = some (.array (f.scenarios.map Scenario.toJson)) := rfl
  have hb : f.toJson.member? "background".toList = f.background.map fun b => .array (b.map Step.toJson) := by
    have ⟨_, _, _, background⟩ := f
    cases background <;> rfl
  have hm : (f.toJson.member? "background".toList).mapM (items? Step.ofJson?) = some f.background := by
    rw [hb]
    cases f.background <;> simp [items?_map Step.ofJson?_toJson]
  rw [ofJson?, hn, hl, hs, hm]
  simp [Json.text?, Json.number?, items?_map Scenario.ofJson?_toJson]

theorem Document.ofJson?_toJson (d : Document) : ofJson? d.toJson = some d := by
  have hf : d.toJson.member? "features".toList = some (.array (d.features.map Feature.toJson)) := rfl
  rw [ofJson?, hf]
  simp [items?_map Feature.ofJson?_toJson]

end Gherkin
end GherkinView
