import GherkinView.Text.Basic

namespace GherkinView.Settings

abbrev Variables := List (Text × Text)

namespace Variables

def get? (vs : Variables) (name : Text) : Option Text :=
  vs.lookup name

def set (vs : Variables) (name value : Text) : Variables :=
  (name, value) :: vs.filter (·.1 != name)

def isSet (vs : Variables) (name : Text) : Bool :=
  (vs.get? name).isSome

end Variables

end GherkinView.Settings
