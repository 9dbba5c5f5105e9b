import GherkinView.Proofs.Journal.Calls
import GherkinView.Proofs.Journal.LogFiles

namespace GherkinView.Journal

open File File.Tree

-- What happens on a desk: names get known, channels are set up, records told, and others write to the tree.
inductive Act
  | introduce (name : Text)
  | setUp (name : Text) (level file : Option Text)
  | tell (r : Record)
  | edit (t : Tree)

def Desk.act (d : Desk) : Act → Desk
  | .introduce name => d.introduce name
  | .setUp name level file => (d.setUp name level file).1
  | .tell r => d.tell r
  | .edit t => { d with tree := t }

def Desk.acts (d : Desk) (as : List Act) : Desk :=
  as.foldl act d

-- The calls that set up the channel, each with the tree of its time.
def Desk.callsTo (name : Text) (d : Desk) : List Act → List Call
  | [] => []
  | .setUp name' level file :: as =>
    if Channels.title name = Channels.title name' then
      ⟨level, file, d.tree⟩ :: (d.act (.setUp name' level file)).callsTo name as
    else (d.act (.setUp name' level file)).callsTo name as
  | a :: as => (d.act a).callsTo name as

-- No channel has a handler, and so none keeps its records from those above.
structure Channels.IsBare (cs : Channels) : Prop where
  handlers (name : Text) : (cs.get name).handlers = []
  propagates {name : Text} : isRoot name = false → (cs.get name).propagates = true

section Runs

variable {d : Desk} {name : Text} {start : Channel} {calls : List Call}

theorem channels_tell (d : Desk) (r : Record) : (d.tell r).channels = d.channels :=
  (Desk.Told.tell d r).channels

-- Induction on what happens. A channel is changed by the calls to it, and by nothing else.
theorem isAfter_acts (as : List Act) (h : (d.channels.get name).IsAfter start calls) :
    ((d.acts as).channels.get name).IsAfter start (calls ++ d.callsTo name as) := by
  induction as generalizing d calls
  case nil => rwa [Desk.callsTo, List.append_nil]
  case cons a as hi =>
    rw [Desk.acts, List.foldl_cons]
    cases a
    case introduce name' => exact hi (by rwa [Desk.act, Desk.introduce, Channels.get_introduce])
    case tell r => exact hi ((channels_tell d r).symm ▸ h)
    case edit t => exact hi h
    case setUp name' level file =>
      have hs := get_setUp d name name' level file
      rw [Desk.callsTo]
      split
      case isTrue ht =>
        rw [if_pos ht] at hs
        rw [List.append_cons]
        exact hi (by rw [Desk.act, hs]; exact h.step _)
      case isFalse ht =>
        rw [if_neg ht] at hs
        exact hi (by rw [Desk.act, hs]; exact h)

theorem isOrdered_acts (as : List Act) (h : d.channels.IsOrdered) : (d.acts as).channels.IsOrdered := by
  induction as generalizing d
  case nil => exact h
  case cons a as hi =>
    rw [Desk.acts, List.foldl_cons]
    refine hi ?_
    cases a
    case introduce name => exact h.introduce name
    case tell r         => exact (channels_tell d r).symm ▸ h
    case edit t         => exact h
    case setUp name level file =>
      obtain ⟨_, e, he⟩ | ⟨_, t, failure, he, _⟩ := setUp_cases d name level file <;> rw [Desk.act, he]
      · exact h.introduce name
      · exact (h.introduce name).set name _

-- After whatever has happened, records climb from a channel to the one that its name is below.
theorem chain_acts (as : List Act) (h : d.channels.IsOrdered) (hn : Channels.isRoot name = false) :
    (d.acts as).channels.chain name =
      (d.acts as).channels.get name :: (d.acts as).channels.chain ((d.acts as).channels.parent name) :=
  (isOrdered_acts as h).chain_eq hn

end Runs

-- One console at most, and one file at most, which is the first that a call could open. A channel below the
-- root keeps its records exactly if it has a handler, and the last level that was not refused is its own.
structure Channel.Holds (c : Channel) (name : Text) (calls : List Call) : Prop where
  console : c.handlers.countP (· matches .console) ≤ 1
  file : c.logFiles = (calls.findSome? Call.file?).toList
  propagates : Channels.isRoot name = false → (c.propagates = false ↔ c.handlers ≠ [])
  level : (∃ call ∈ calls, call.isAccepted = true) →
    c.level = (calls.filterMap Call.level?).getLast?.getD .info

-- A call shows nothing and writes to no file. If it succeeds, its level was not refused.
structure Desk.SetsUp (d : Desk) (call : Call) (d' : Desk × Option Error) : Prop where
  shown : d'.1.shown = d.shown
  keeps : KeepsBut [] d.tree d'.1.tree
  accepted : d'.2 = none → call.isAccepted = true

-- The record is shown once at most, with or without its level, and written to each file once at most.
structure Desk.TellsOnce (d : Desk) (r : Record) (d' : Desk) : Prop where
  shown : d'.shown = d.shown ∨ d'.shown = d.shown ++ r.styledLine ∨ d'.shown = d.shown ++ r.message ++ ['\n']
  file (l : Location) : d'.tree.content? l = d.tree.content? l ∨
    ∃ bytes, d.tree.content? l = some (some bytes) ∧
      d'.tree.content? l = some (some (bytes ++ Utf8.encode r.plainLine))

-- A channel that has handlers has a console first, a file at most, and keeps its records.
def Channel.IsReady (c : Channel) : Prop :=
  c.handlers = [] ∨ ∃ l? : Option Location, c.handlers = .console :: l?.toList.map .file ∧ c.propagates = false

section Telling

variable {d : Desk} {cs : Channels} {chain : List Channel} {name : Text}

theorem Channel.IsAfter.isReady {c start : Channel} {calls : List Call} (h : c.IsAfter start calls) :
    c.IsReady := by
  have ⟨hc, hp, _⟩ := h
  cases hn : calls.any Call.isAccepted <;> rw [hn] at hc hp
  case false => exact .inl hc
  case true  => exact .inr ⟨_, hc, hp⟩

-- Of the channels that a record climbs, the first one that has handlers tells it.
theorem handlersOf_of_isReady (h : ∀ c ∈ chain, c.IsReady) : Channels.handlersOf chain = [] ∨
    ∃ l? : Option Location, Channels.handlersOf chain = .console :: l?.toList.map .file := by
  induction chain
  case nil => exact .inl rfl
  case cons c chain hi =>
    rw [Channels.handlersOf]
    obtain hc | ⟨l?, hc, hp⟩ := h c List.mem_cons_self
    case inr => exact .inr ⟨l?, by simp [hc, hp]⟩
    case inl =>
      rw [hc, List.nil_append]
      split
      case isTrue  => exact hi fun c hm => h c (List.mem_cons_of_mem _ hm)
      case isFalse => exact .inl rfl

theorem tellsOnce_handleAll {r : Record} (l? : Option Location) :
    d.TellsOnce r ((.console :: l?.toList.map .file).foldl (Desk.handle r) d) := by
  cases l?
  case none => exact ⟨.inr (.inl rfl), fun _ => .inl rfl⟩
  case some l =>
    refine ⟨.inr (.inl rfl), fun k => ?_⟩
    have ha := content?_append d.tree l r.plainLine k
    by_cases hk : k = l
    case neg => exact .inl (ha.trans (if_neg hk))
    case pos =>
      subst hk
      rw [if_pos rfl] at ha
      rcases hc : d.tree.content? k with _ | _ | bytes <;> rw [hc] at ha
      · exact .inl ha
      · exact .inl ha
      · exact .inr ⟨bytes, rfl, ha⟩

theorem tellsOnce_of_isReady (h : ∀ name, (d.channels.get name).IsReady) (r : Record) :
    d.TellsOnce r (d.tell r) := by
  have hh : ∀ c ∈ d.channels.chain r.channel, c.IsReady := by
    intro c hc
    obtain ⟨name, rfl⟩ := Channels.exists_name_of_mem_chain hc
    exact h name
  unfold Desk.tell
  split
  case isFalse => exact ⟨.inl rfl, fun _ => .inl rfl⟩
  case isTrue =>
    obtain he | ⟨l?, he⟩ := handlersOf_of_isReady hh <;> rw [he]
    case inr => exact tellsOnce_handleAll l?
    case inl =>
      dsimp only
      split
      case isTrue  => exact ⟨.inr (.inr rfl), fun _ => .inl rfl⟩
      case isFalse => exact ⟨.inl rfl, fun _ => .inl rfl⟩

theorem setsUp (d : Desk) (name : Text) (level file : Option Text) :
    d.SetsUp ⟨level, file, d.tree⟩ (d.setUp name level file) := by
  obtain ⟨_, e, he⟩ | ⟨ha, t, failure, he, ht⟩ := setUp_cases d name level file <;> rw [he]
  case inl =>
    refine ⟨rfl, .refl _ _, fun h => ?_⟩
    contradiction
  case inr =>
    refine ⟨rfl, ?_, fun _ => ha⟩
    obtain rfl | ⟨_, _, ho, _⟩ := ht
    · exact .refl _ _
    · exact keepsBut_openLog ho

theorem Channel.IsAfter.holds {c start : Channel} {calls : List Call} (h : c.IsAfter start calls)
    (hs : Channels.isRoot name = false → start.propagates = true) : c.Holds name calls := by
  have ⟨hc, hp, hl⟩ := h
  refine ⟨?console, ?file, fun hn => ?propagates, fun hn => ?level⟩
  case console =>
    rw [hc]
    cases calls.findSome? Call.file? <;> split <;> simp
  case file =>
    rw [logFiles, hc]
    cases hn : calls.any Call.isAccepted
    case false => rw [findSome?_file?_eq_none hn]; rfl
    case true  => cases calls.findSome? Call.file? <;> rfl
  case propagates =>
    rw [hc, hp, hs hn]
    split <;> simp
  case level =>
    have hn : calls.any Call.isAccepted = true := List.any_eq_true.mpr hn
    rw [hl, hn, if_pos rfl]

end Telling

-- After any calls and records, in any order, each channel holds what the calls to it make of it. The next call
-- shows nothing, and the next record is told once.
theorem acts_tell_once {d : Desk} (hd : d.channels.IsBare) (as : List Act) :
    (∀ name, ((d.acts as).channels.get name).Holds name (d.callsTo name as)) ∧
      (∀ name level file,
        (d.acts as).SetsUp ⟨level, file, (d.acts as).tree⟩ ((d.acts as).setUp name level file)) ∧
        ∀ r, (d.acts as).TellsOnce r ((d.acts as).tell r) := by
  have h (name : Text) : ((d.acts as).channels.get name).IsAfter (d.channels.get name) (d.callsTo name as) :=
    isAfter_acts as (.of_nil (hd.handlers name))
  exact ⟨fun name => (h name).holds hd.propagates, setsUp _, tellsOnce_of_isReady fun name => (h name).isReady⟩

theorem isBare_empty : Channels.IsBare {} where
  handlers name := by rw [Channels.get]; split <;> rfl
  propagates hn := by rw [Channels.get, if_neg (Bool.eq_false_iff.mp hn)]; rfl

-- Two channels, one below the other, with the same log file. One call is refused, and one names a second file.
def nestedActs : List Act := [
  .setUp "a".toList (some "basic_format".toList) (some "first.log".toList),
  .setUp "a".toList none (some "a.log".toList),
  .setUp "a.b".toList (some "loud".toList) (some "a.log".toList),
  .tell ⟨.info, "a.b".toList, "hello".toList⟩,
  .setUp "a".toList (some "debug".toList) (some "b.log".toList)]

theorem nested_tell_once : Channels.IsBare {} ∧
    (({} : Desk).acts nestedActs).channels.get "a".toList =
      ⟨.debug, [.console, .file ["a.log".toList]], false⟩ ∧
    ∀ r, (({} : Desk).acts nestedActs).TellsOnce r ((({} : Desk).acts nestedActs).tell r) :=
  ⟨isBare_empty, by decide +kernel, (acts_tell_once isBare_empty nestedActs).2.2⟩

end GherkinView.Journal
