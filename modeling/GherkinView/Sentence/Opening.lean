import GherkinView.Text.Case
import GherkinView.Text.Word

namespace GherkinView.Sentence

open Text

structure Opening where
  verb : Text
  lead : Text
  tail : Text

namespace Opening

def enter : Opening := ⟨"enter ".toList, "the user enters ".toList, []⟩

def click : Opening := ⟨"click ".toList, "the user clicks the ".toList, []⟩

def verify : Opening := ⟨"verify ".toList, "the ".toList, " should be visible".toList⟩

-- The text behind the verb, if the opening applies.
def object? (o : Opening) (t : Text) : Option Text :=
  (afterFolded? o.verb t).filter fun r => !(word r).isEmpty

def apply (o : Opening) (t : Text) : Text :=
  match o.object? t with
  | some r => o.lead ++ word r ++ o.tail ++ afterWord r
  | none => t

end Opening

def openings : List Opening := [.enter, .click, .verify]

def applyOpenings (t : Text) : Text :=
  openings.foldl (fun t o => o.apply t) t

end GherkinView.Sentence
