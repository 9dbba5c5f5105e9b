import GherkinView.CommandLine.Words
import GherkinView.Libraries
import GherkinView.Settings.VariableFile
import GherkinView.Text.Style
import GherkinView.Yaml.Block

-- The libraries that the program runs with.

namespace GherkinView.Standard

open CommandLine Journal Settings

def unreadRecord (line : Nat) : Record :=
  ⟨.warning, "dotenv.main".toList,
    "python-dotenv could not parse statement starting at line ".toList ++ Text.ofNat line⟩

def loadVariables (vs : Variables) (t : Text) : Variables × List Record :=
  let file := VariableFile.ofText t
  (vs.load file, file.unread.map unreadRecord)

scoped instance : Libraries where
  readSettings  := Yaml.read
  loadVariables := loadVariables
  readWords?    := readWords?
  unstyled      := Text.unstyled

end GherkinView.Standard
