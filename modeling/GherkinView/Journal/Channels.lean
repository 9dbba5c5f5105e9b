import GherkinView.Journal.Record
import GherkinView.File.Tree
import GherkinView.Text.Case

namespace GherkinView.Journal

open File

inductive Handler
  | console
  | file (location : Location)
  deriving DecidableEq

structure Channel where
  level : Level := .unset
  handlers : List Handler := []
  propagates : Bool := true
  deriving DecidableEq

-- The root channel has the empty name.
structure Channels where
  root : Channel := { level := .warning }
  named : List (Text × Channel) := []
  -- The names that are known, and what each of them is below.
  parents : List (Text × Text) := []
  deriving DecidableEq

namespace Channels

-- The root may also be called by its name.
def isRoot (name : Text) : Bool :=
  name == [] || name == "root".toList

def title (name : Text) : Text :=
  if isRoot name then "root".toList else name

def get (cs : Channels) (name : Text) : Channel :=
  if isRoot name then cs.root else (cs.named.lookup name).getD {}

def set (cs : Channels) (name : Text) (c : Channel) : Channels :=
  if isRoot name then { cs with root := c }
  else { cs with named := (name, c) :: cs.named.filter (·.1 != name) }

-- The beginnings of a dotted name that it may be below, longest first. From one to the next the search leaves out
-- a character, which may be a dot.
def above (name : Text) : List Text :=
  search name.reverse
where
  search : Text → List Text
    | '.' :: c :: r => (c :: r).reverse :: search r
    | _ :: r => search r
    | [] => []

def isKnown (cs : Channels) (name : Text) : Bool :=
  (cs.parents.lookup name).isSome

def parent (cs : Channels) (name : Text) : Text :=
  (cs.parents.lookup name).getD (((above name).find? cs.isKnown).getD [])

-- A new name comes between the names below it and what these were below, unless the title of that starts with it as
-- if it were below it already.
def introduce (cs : Channels) (name : Text) : Channels :=
  if isRoot name || cs.isKnown name then cs
  else
    let adopted := cs.parents.map fun (child, parent) =>
      if (above child).contains name && !name.isPrefixOf (title parent) then (child, name) else (child, parent)
    { cs with parents := (name, cs.parent name) :: adopted }

-- The channel of that name and those above it, the root last. Every name is below shorter ones.
def chain (cs : Channels) (name : Text) : List Channel :=
  climb name.length name
where
  climb : Nat → Text → List Channel
    | 0, _ => [cs.root]
    | n + 1, name => if isRoot name then [cs.root] else cs.get name :: climb n (cs.parent name)

def effectiveLevel (cs : Channels) (name : Text) : Level :=
  ((cs.chain name).find? (·.level != .unset)).elim .unset Channel.level

def isEnabled (cs : Channels) (r : Record) : Bool :=
  r.level > 0 && cs.effectiveLevel r.channel ≤ r.level

-- A record goes up to the first channel that does not propagate.
def handlersOf : List Channel → List Handler
  | [] => []
  | c :: cs => c.handlers ++ if c.propagates then handlersOf cs else []

end Channels

def resetStyle : Text := "\x1b[0m".toList

def levelStyle (l : Level) : Text :=
  if l = .debug then "\x1b[36m".toList
  else if l = .info then "\x1b[32m".toList
  else if l = .warning then "\x1b[33m".toList
  else if l = .error then "\x1b[31m".toList
  else if l = .critical then "\x1b[31m\x1b[1m".toList
  else []

def Record.line (r : Record) (levelName : Text) : Text :=
  '[' :: levelName ++ "] ".toList ++ Channels.title r.channel ++ ": ".toList ++ r.message ++ ['\n']

def Record.plainLine (r : Record) : Text :=
  r.line r.level.name

def Record.styledLine (r : Record) : Text :=
  r.line (levelStyle r.level ++ r.level.name ++ resetStyle)

-- The place of the handlers' output: what is shown, and the files.
structure Desk where
  channels : Channels := {}
  tree : Tree := {}
  shown : Text := []
  deriving DecidableEq

namespace Desk

def introduce (d : Desk) (name : Text) : Desk :=
  { d with channels := d.channels.introduce name }

def handle (r : Record) (d : Desk) : Handler → Desk
  | .console => { d with shown := d.shown ++ r.styledLine }
  | .file l => { d with tree := d.tree.append l r.plainLine }

-- If there is no handler at all, warnings and worse are told bare.
def tell (d : Desk) (r : Record) : Desk :=
  if d.channels.isEnabled r then
    match Channels.handlersOf (d.channels.chain r.channel) with
    | [] => if .warning ≤ r.level then { d with shown := d.shown ++ r.message ++ ['\n'] } else d
    | hs => hs.foldl (handle r) d
  else d

def tellAll (d : Desk) (rs : List Record) : Desk :=
  rs.foldl tell d

end Desk

-- Names of levels in any case. Two other names mean something else here and are refused; a name
-- without meaning stands for `info`.
def levelNamed (name : Text) : Except Error Level :=
  let n := Text.upper name
  if n = "DEBUG".toList then .ok .debug
  else if n = "WARNING".toList || n = "WARN".toList then .ok .warning
  else if n = "ERROR".toList then .ok .error
  else if n = "CRITICAL".toList || n = "FATAL".toList then .ok .critical
  else if n = "NOTSET".toList then .ok .unset
  else if n = "BASIC_FORMAT".toList then
    .error (.unknownLevel "%(levelname)s:%(name)s:%(message)s".toList)
  else if n = "_STYLES".toList then .error .wrongKind
  else .ok .info

namespace Channel

def hasFile (c : Channel) : Bool :=
  c.handlers.any (· matches .file _)

-- Console output for a channel that has no handler yet.
def attach (c : Channel) (leveled : Bool) : Channel :=
  if c.handlers.isEmpty then
    ⟨if leveled then c.level else .info, [.console], false⟩
  else c

end Channel

-- Double dots take back the component before them, whatever it is.
def plainLocation (l : Location) (parts : List Text) : Location :=
  parts.foldl Tree.advance l

-- The path of a log file is settled when it is opened.
def logPath (t : Tree) (p : Path) : Path :=
  let l := plainLocation (if p.isAbsolute then [] else t.home) p.parts
  match t.home.isPrefixOf? l with
  | some parts => ⟨[], parts⟩
  | none => ⟨['/'], l⟩

-- Sets the level of the channel if one is given, and sees to it that it has a console, and the file if one is given
-- and it has none. What was done before a failure stays.
def Desk.configure (d : Desk) (name : Text) (level file : Option Text) : Desk × Option Error :=
  let level? := level.filter (!·.isEmpty)
  match level?.mapM levelNamed with
  | .error e => (d, some e)
  | .ok l =>
    let c := (d.channels.get name)
    let c := { c with level := l.getD c.level }.attach level?.isSome
    let d := { d with channels := d.channels.set name c }
    match file.filter fun f => !f.isEmpty && !c.hasFile with
    | none => (d, none)
    | some f =>
      match d.tree.openLog (logPath d.tree (.ofText f)) with
      | .error e => (d, some e)
      | .ok (tree, location) =>
        let c := { c with handlers := c.handlers ++ [.file location] }
        ({ d with channels := d.channels.set name c, tree }, none)

def Desk.setUp (d : Desk) (name : Text) (level file : Option Text) : Desk × Option Error :=
  (d.introduce name).configure name level file

end GherkinView.Journal
