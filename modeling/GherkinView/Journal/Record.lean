import GherkinView.Text.Basic

namespace GherkinView.Journal

abbrev Level := Int

namespace Level

def debug : Level := 10

def info : Level := 20

def warning : Level := 30

def error : Level := 40

def critical : Level := 50

-- A channel with no level of its own takes it from above.
def unset : Level := 0

def name (l : Level) : Text :=
  if l = critical then "CRITICAL".toList
  else if l = error then "ERROR".toList
  else if l = warning then "WARNING".toList
  else if l = info then "INFO".toList
  else if l = debug then "DEBUG".toList
  else if l = unset then "NOTSET".toList
  else "Level ".toList ++ Text.ofInt l

end Level

-- The name of a channel is dotted.
structure Record where
  level : Level
  channel : Text
  message : Text
  deriving DecidableEq

namespace Channel

def program : Text := "bddbridge".toList

def reading : Text := "bddbridge.parser.source_parser".toList

def telling : Text := "bddbridge.converter.gherkin_converter".toList

def settings : Text := "bddbridge.core.config_manager".toList

end Channel
end GherkinView.Journal
