import GherkinView.CommandLine.Options
import GherkinView.File.Utf8
import GherkinView.Journal.Record
import GherkinView.Settings.Value
import GherkinView.Settings.Variables

namespace GherkinView

-- Why a file of settings is not read.
inductive Settings.Unread
  | malformed
  | undecodable (failure : File.Utf8.Failure)
  -- The form is right, but some value in it is not.
  | invalid (message : Text)
  -- Or it is in itself.
  | endless
  deriving DecidableEq

-- What the program does not do by itself.
class Libraries where
  -- The value in a file of settings.
  readSettings : List UInt8 → Except Settings.Unread Settings.Value
  -- The variables when those in a text are loaded, and what is told meanwhile.
  loadVariables : Settings.Variables → Text → Settings.Variables × List Journal.Record
  -- The words of a command line, unless it is misused. Options may be mixed with the other words, or else end at
  -- the first of these.
  readWords? : List CommandLine.OptionKind → (mixed : Bool) → List Text → Option CommandLine.Words
  -- A text as it is put out where there is no terminal.
  unstyled : Text → Text

end GherkinView
