import GherkinView.CommandLine.Request
import GherkinView.Journal.Channels
import GherkinView.Settings.Loading

namespace GherkinView.CommandLine

open File Journal Settings

-- How a command ends; `broken` is an error that it does not handle.
inductive Ending
  | done
  | failed
  | misused
  | broken (error : Error)
  deriving DecidableEq

def Ending.code : Ending → Nat
  | done => 0
  | failed | broken _ => 1
  | misused => 2

structure Session where
  printed : Text := []
  desk : Desk := {}
  deriving DecidableEq

namespace Session

variable [Libraries]

def tree (s : Session) : Tree := s.desk.tree

def setTree (s : Session) (t : Tree) : Session :=
  { s with desk := { s.desk with tree := t } }

def print (s : Session) (t : Text) : Session :=
  { s with printed := s.printed ++ Libraries.unstyled t ++ ['\n'] }

-- Errors are shown where the records are.
def complain (s : Session) (e : Text) : Session :=
  { s with desk := { s.desk with shown := s.desk.shown ++ Libraries.unstyled ("Error: ".toList ++ e) ++ ['\n'] } }

def tellAll (s : Session) (rs : List Record) : Session :=
  { s with desk := s.desk.tellAll rs }

def tell (s : Session) (level : Level) (message : Text) : Session :=
  s.tellAll [⟨level, Channel.program, message⟩]

end Session

-- The level in the settings; what counts as not given is none.
def levelText? (v : Value) : Except Error (Option Text) :=
  if !v.isGiven then .ok none
  else match v with
    | .scalar (.text t) => .ok (some t)
    | _ => .error .levelNotText

def fileText? (v : Value) : Except Error (Option Text) :=
  if !v.isGiven then .ok none
  else match v with
    | .scalar (.text t) => .ok (some t)
    | _ => .error .wrongKind

-- The channel of the program, as the settings say.
def setUpProgram (settings : Settings) (d : Desk) : Desk × Option Error :=
  match levelText? (settings.get "logging.level".toList (.text "INFO".toList)) with
  | .error e => (d, some e)
  | .ok level =>
    match fileText? (settings.get "logging.file".toList .null) with
    | .ok file => d.setUp Channel.program level file
    | .error e =>
      match d.setUp Channel.program level none with
      | (d, none) => (d, some e)
      | failed => failed

-- Files of settings that are not well formed are told of.
def isTold : Error → Bool
  | .invalidSettings _ | .settingsNotMapping _ => true
  | _ => false

inductive Started
  | ready (session : Session) (settings : Settings)
  | ended (session : Session) (ending : Ending)
  deriving DecidableEq

def Started.session : Started → Session
  | ready s _ | ended s _ => s

def start [Libraries] (s : Session) (settings : Settings) : Started :=
  let loaded := settings.load s.tree
  let s := s.tellAll loaded.records
  match loaded.failure with
  | some e => if isTold e then .ended (s.complain e.message) .failed else .ended s (.broken e)
  | none =>
    match setUpProgram loaded.settings s.desk with
    | (desk, none) => .ready { s with desk } loaded.settings
    | (desk, some e) => .ended { s with desk } (.broken e)

end GherkinView.CommandLine
