import GherkinView.CommandLine.Session
import GherkinView.File.Edit
import GherkinView.Preview

namespace GherkinView.CommandLine

open File Journal Number Settings

variable [Libraries]

structure Watching where
  session : Session
  preview : Preview

namespace Watching

-- Refreshes the view, and prints it or why it could not be refreshed; `above` goes over the view.
def refresh (w : Watching) (above : List Text) : Bool × Watching :=
  let r := w.preview.refresh w.session.tree
  let s := w.session.tellAll r.records
  if r.updated then (true, ⟨(above ++ [r.preview.content]).foldl Session.print s, r.preview⟩)
  else (false, ⟨s.complain (r.preview.lastError.getD []), r.preview⟩)

def rule : Text := List.replicate 40 '-'

def step (w : Watching) : Watching :=
  match w.preview.look w.session.tree with
  | (true, preview) => ({ w with preview }.refresh [rule]).2
  | (false, preview) => { w with preview }

def edit (w : Watching) (edits : List Edit) : Watching :=
  { w with session := w.session.setTree (edits.foldl Tree.edit w.session.tree) }

def stop (w : Watching) : Session :=
  w.session.tell .info "Preview stopped".toList

end Watching

-- The number of seconds in the settings.
def intervalOf (v : Value) : Except Error Binary64 :=
  match v with
  | .scalar (.number x) => .ok x
  | .scalar (.int n) => .ok (.ofInt n)
  | .scalar (.bool b) => .ok (.ofInt (if b then 1 else 0))
  | .scalar (.text t) =>
    match Number.read? t with
    | some x => .ok x
    | none => .error (.notNumber t)
  | _ => .error .wrongKind

-- An interval of zero counts as not given.
def PreviewRequest.intervalIn (r : PreviewRequest) (settings : Settings) : Except Error Binary64 :=
  match r.interval.filter (!·.isZero) with
  | some x => .ok x
  | none => intervalOf (settings.get "watch.interval".toList (.scalar (.number (.ofInt 1))))

def watchText (r : PreviewRequest) (interval : Binary64) : Text :=
  "Watching ".toList ++ r.path ++ " (every ".toList ++ interval.toText ++ "s, Ctrl+C to stop)".toList

-- A command is over, or it watches a script and waits for an interval over and over.
inductive Progress
  | over (s : Session) (ending : Ending)
  | waiting (w : Watching) (interval : Binary64)

def preview (r : PreviewRequest) (settings : Settings) (s : Session) : Progress :=
  let p : Preview := { path := .ofText r.path, format := r.format.name }
  match Watching.refresh ⟨s, (p.look s.tree).2⟩ [], r.watch with
  | (updated, w), false => .over w.session (if updated then .done else .failed)
  | (_, w), true =>
    match r.intervalIn settings with
    | .error e => .over w.session (.broken e)
    | .ok x => .waiting { w with session := w.session.tell .info (watchText r x) } x

end GherkinView.CommandLine
