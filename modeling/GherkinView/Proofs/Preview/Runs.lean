import Mathlib.Data.List.Induction
import GherkinView.File.Edit
import GherkinView.Preview

namespace GherkinView.Preview

open File

-- What is to be shown of the file, in the format that is set.
def output (p : Preview) (t : Tree) : Except Error Text := do
  let source ← sourceText t p.path
  (documentOf source).writeAs p.format (some p.path.name)

section Refresh

variable {p : Preview} {t : Tree} {c : Text} {e : Error}

theorem map_view (p : Preview) (t : Tree) : (p.view t).2.map Prod.fst = p.output t := by
  rw [view, output]
  cases sourceText t p.path
  case error => rfl
  case ok source =>
    have hb : (Except.ok source >>= fun s => (documentOf s).writeAs p.format (some p.path.name)) =
      (documentOf source).writeAs p.format (some p.path.name) := rfl
    rw [hb]
    dsimp only
    cases (documentOf source).writeAs p.format (some p.path.name) <;> rfl

theorem refresh_ok (h : p.output t = .ok c) :
    (p.refresh t).updated = true ∧ (p.refresh t).preview = { p with content := c, lastError := none } := by
  rw [← map_view] at h
  rw [refresh]
  split
  case h_1 records content features hv =>
    rw [hv] at h
    cases h
    exact ⟨rfl, rfl⟩
  case h_2 records e hv =>
    rw [hv] at h
    contradiction

theorem refresh_error (h : p.output t = .error e) :
    (p.refresh t).updated = false ∧ (p.refresh t).preview = { p with lastError := some e.message } := by
  rw [← map_view] at h
  rw [refresh]
  split
  case h_1 records content features hv =>
    rw [hv] at h
    contradiction
  case h_2 records e hv =>
    rw [hv] at h
    cases h
    exact ⟨rfl, rfl⟩

theorem look_preview (p : Preview) (t : Tree) :
    (p.look t).2 = { p with lastStamp := (t.stamp? p.path).or p.lastStamp } := by
  rw [look]
  cases t.stamp? p.path <;> rfl

-- A look changes nothing that an output depends on.
theorem output_look (p : Preview) (t : Tree) : (p.look t).2.output t = p.output t := by
  rw [look_preview]
  rfl

theorem refreshIfChanged_of_look (h : (p.look t).1 = true) :
    p.refreshIfChanged t = (p.look t).2.refresh t := by
  rw [refreshIfChanged]
  split
  case h_1 hl => rw [hl]
  case h_2 hl => rw [hl] at h; contradiction

theorem refreshIfChanged_of_not_look (h : (p.look t).1 = false) :
    p.refreshIfChanged t = ⟨false, (p.look t).2, []⟩ := by
  rw [refreshIfChanged]
  split
  case h_1 hl => rw [hl] at h; contradiction
  case h_2 hl => rw [hl]

end Refresh

-- What happens to a preview and its tree.
inductive Event
  | refresh
  | look
  | refreshIfChanged
  | setFormat (name : Text)
  | edit (e : Edit)

structure Moment where
  preview : Preview
  tree : Tree

namespace Moment

def step (m : Moment) : Event → Moment
  | .refresh => { m with preview := (m.preview.refresh m.tree).preview }
  | .look => { m with preview := (m.preview.look m.tree).2 }
  | .refreshIfChanged => { m with preview := (m.preview.refreshIfChanged m.tree).preview }
  | .setFormat name => { m with preview.format := name }
  | .edit e => { m with tree := m.tree.edit e }

def run (m : Moment) (es : List Event) : Moment :=
  es.foldl step m

-- Whether the event comes to a refresh at this moment.
def isAttempt (m : Moment) : Event → Bool
  | .refresh => true
  | .refreshIfChanged => (m.preview.look m.tree).1
  | _ => false

-- The moments of a run at which there was a refresh.
def attempts (m : Moment) : List Event → List Moment
  | [] => []
  | e :: es => (if m.isAttempt e then [m] else []) ++ (m.step e).attempts es

def output (m : Moment) : Except Error Text :=
  m.preview.output m.tree

def view? (m : Moment) : Option Text :=
  m.output.toOption

def failure? (m : Moment) : Option Text :=
  match m.output with
  | .error e => some e.message
  | .ok _ => none

variable (m : Moment)

theorem run_concat (es : List Event) (e : Event) : m.run (es ++ [e]) = (m.run es).step e :=
  List.foldl_append

theorem attempts_concat (es : List Event) (e : Event) :
    m.attempts (es ++ [e]) = m.attempts es ++ if (m.run es).isAttempt e then [m.run es] else [] := by
  induction es generalizing m
  case nil => rw [List.nil_append, attempts, attempts, attempts, List.append_nil, List.nil_append]; rfl
  case cons e' es hi =>
    rw [List.cons_append, attempts, attempts, hi, List.append_assoc]
    rfl

end Moment

-- What a preview shows after attempts to refresh it.
structure Follows (as : List Moment) (p : Preview) : Prop where
  content : p.content = ((as.filterMap Moment.view?).getLast?).getD []
  lastError : p.lastError = as.getLast?.bind Moment.failure?

namespace Follows

variable {as : List Moment} {p q : Preview} {m : Moment} {t : Tree} {c : Text} {e : Error}

theorem congr (h : Follows as p) (hc : q.content = p.content) (he : q.lastError = p.lastError) :
    Follows as q :=
  ⟨hc.trans h.content, he.trans h.lastError⟩

-- A refresh of `p`, which agrees with the preview at that moment on what its output is.
theorem refresh (h : Follows as p) (ho : m.output = p.output t) :
    Follows (as ++ [m]) (p.refresh t).preview := by
  cases hp : p.output t
  case ok c =>
    rw [hp] at ho
    have hv : m.view? = some c := by rw [Moment.view?, ho]; rfl
    have hf : m.failure? = none := by rw [Moment.failure?, ho]
    rw [(refresh_ok hp).right]
    exact ⟨by simp [hv], by simp [hf]⟩
  case error e =>
    rw [hp] at ho
    have hv : m.view? = none := by rw [Moment.view?, ho]; rfl
    have hf : m.failure? = some e.message := by rw [Moment.failure?, ho]
    rw [(refresh_error hp).right]
    exact ⟨by simpa [hv] using h.content, by simp [hf]⟩

theorem step {as : List Moment} {m : Moment} (h : Follows as m.preview) (e : Event) :
    Follows (as ++ if m.isAttempt e then [m] else []) (m.step e).preview := by
  have hl : Follows as (m.preview.look m.tree).2 := by
    rw [look_preview]
    exact h.congr rfl rfl
  cases e
  case refresh        => exact h.refresh rfl
  case look           => exact (List.append_nil as).symm ▸ hl
  case setFormat name => exact (List.append_nil as).symm ▸ h.congr rfl rfl
  case edit           => exact (List.append_nil as).symm ▸ h
  case refreshIfChanged =>
    cases hb : (m.preview.look m.tree).1
    case true =>
      rw [Moment.step, refreshIfChanged_of_look hb, Moment.isAttempt, hb, if_pos rfl]
      exact hl.refresh (output_look m.preview m.tree).symm
    case false =>
      rw [Moment.step, refreshIfChanged_of_not_look hb, Moment.isAttempt, hb]
      exact (List.append_nil as).symm ▸ hl

theorem run (p : Preview) (t : Tree) (hp : Follows [] p) (es : List Event) :
    Follows (Moment.attempts ⟨p, t⟩ es) (Moment.run ⟨p, t⟩ es).preview := by
  induction es using List.reverseRecOn
  case nil => exact hp
  case append_singleton es e hi =>
    rw [Moment.run_concat, Moment.attempts_concat]
    exact hi.step e

theorem new (path : Path) (format : Text) : Follows [] { path, format } :=
  ⟨rfl, rfl⟩

theorem lastError_eq_none_iff (h : Follows as p) :
    p.lastError = none ↔ ∀ a ∈ as.getLast?, a.view?.isSome = true := by
  rw [h.lastError, Option.bind_eq_none_iff]
  have hm (m : Moment) : m.failure? = none ↔ m.view?.isSome = true := by
    rw [Moment.failure?, Moment.view?]
    cases m.output
    case error => exact ⟨nofun, nofun⟩
    case ok    => exact ⟨fun _ => rfl, fun _ => rfl⟩
  exact forall₂_congr fun a _ => hm a

end Follows

-- Whatever happens to a new preview, its content is that of the last refresh that went well and its
-- error tells of the last refresh. A refresh that fails changes the error only, and a look neither.
theorem run_keeps_view (path : Path) (format : Text) (t : Tree) (es : List Event) :
    let start : Moment := ⟨{ path, format }, t⟩
    let m := start.run es
    let r := m.preview.refresh m.tree
    m.preview.content = (((start.attempts es).filterMap Moment.view?).getLast?).getD [] ∧
      (m.preview.lastError = none ↔ ∀ a ∈ (start.attempts es).getLast?, a.view?.isSome = true) ∧
      r.updated = m.view?.isSome ∧
      (r.updated = false → ∃ e, r.preview = { m.preview with lastError := some e }) ∧
      (m.step .look).preview.content = m.preview.content ∧
      (m.step .look).preview.lastError = m.preview.lastError := by
  intro start m r
  have h : Follows (start.attempts es) m.preview := Follows.run { path, format } t (.new path format) es
  refine ⟨h.content, h.lastError_eq_none_iff, ?updated, ?failed, ?content, ?lastError⟩
  case updated =>
    rw [Moment.view?, Moment.output]
    cases ho : m.preview.output m.tree
    case ok    => exact (refresh_ok ho).left
    case error => exact (refresh_error ho).left
  case failed =>
    intro hr
    cases ho : m.preview.output m.tree
    case ok      => exact absurd ((refresh_ok ho).left.symm.trans hr) nofun
    case error e => exact ⟨e.message, (refresh_error ho).right⟩
  case content   => rw [Moment.step, look_preview]
  case lastError => rw [Moment.step, look_preview]

end GherkinView.Preview
