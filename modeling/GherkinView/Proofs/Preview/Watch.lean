import GherkinView.CommandLine.Watch
import GherkinView.Proofs.Preview.Runs

namespace GherkinView.Preview

open File

-- What happens while a file is watched.
def Event.isWatch : Event → Bool
  | .refreshIfChanged | .edit _ => true
  | _ => false

-- The trees of a run, up to the present one.
def Moment.trees (m : Moment) : List Event → List Tree
  | [] => [m.tree]
  | e :: es => m.tree :: (m.step e).trees es

-- Files with the same stamp hold the same.
def StampsTell (path : Path) (ts : List Tree) : Prop :=
  ∀ t ∈ ts, ∀ t' ∈ ts, (t.stamp? path).isSome = true → t.stamp? path = t'.stamp? path →
    t.readBytes path = t'.readBytes path

instance (path : Path) (ts : List Tree) : Decidable (StampsTell path ts) :=
  inferInstanceAs (Decidable (∀ t ∈ ts, ∀ t' ∈ ts, _ → _ → _))

section Trees

variable (m : Moment)

theorem Moment.trees_concat (es : List Event) (e : Event) :
    m.trees (es ++ [e]) = m.trees es ++ [((m.run es).step e).tree] := by
  induction es generalizing m
  case nil => rfl
  case cons e' es hi =>
    rw [List.cons_append, trees, trees, hi]
    rfl

theorem Moment.tree_run_mem (es : List Event) : (m.run es).tree ∈ m.trees es := by
  induction es generalizing m
  case nil => exact List.mem_singleton_self _
  case cons e es hi => exact List.mem_cons_of_mem _ (hi (m.step e))

end Trees

-- The preview shows the output, or why there is none.
def Tells (p : Preview) : Except Error Text → Prop
  | .ok c => p.lastError = none ∧ p.content = c
  | .error e => p.lastError = some e.message

-- What is shown is what `start` would show of a tree in which the file had the stamp seen last.
structure Watched (start : Preview) (ts : List Tree) (p : Preview) : Prop where
  path : p.path = start.path
  format : p.format = start.format
  told : ∀ s ∈ p.lastStamp, ∃ t ∈ ts, t.stamp? start.path = some s ∧ p.Tells (start.output t)

section Check

variable {p q : Preview} {t t' : Tree} {s : Stamp}

theorem output_eq (hp : p.path = q.path) (hf : p.format = q.format) (t : Tree) :
    p.output t = q.output t := by
  simp only [output, hp, hf]

theorem output_congr (h : t.readBytes p.path = t'.readBytes p.path) : p.output t = p.output t' := by
  simp only [output, sourceText, Tree.readText, h]

theorem tells_refresh (p : Preview) (t : Tree) : (p.refresh t).preview.Tells (p.output t) := by
  cases h : p.output t
  case ok    => rw [(refresh_ok h).right]; exact ⟨rfl, rfl⟩
  case error => rw [(refresh_error h).right]; exact rfl

-- A refresh looks at no stamp.
theorem refresh_keeps (p : Preview) (t : Tree) :
    (p.refresh t).preview.path = p.path ∧ (p.refresh t).preview.format = p.format ∧
      (p.refresh t).preview.lastStamp = p.lastStamp := by
  cases h : p.output t
  case ok    => rw [(refresh_ok h).right]; exact ⟨rfl, rfl, rfl⟩
  case error => rw [(refresh_error h).right]; exact ⟨rfl, rfl, rfl⟩

theorem refreshIfChanged_keeps (p : Preview) (t : Tree) :
    (p.refreshIfChanged t).preview.path = p.path ∧ (p.refreshIfChanged t).preview.format = p.format ∧
      (p.refreshIfChanged t).preview.lastStamp = (t.stamp? p.path).or p.lastStamp := by
  cases hb : (p.look t).1
  case true =>
    rw [refreshIfChanged_of_look hb, look_preview]
    exact refresh_keeps _ t
  case false =>
    rw [refreshIfChanged_of_not_look hb, look_preview]
    exact ⟨rfl, rfl, rfl⟩

theorem look_iff : (p.look t).1 = true ↔ ∃ s, t.stamp? p.path = some s ∧ p.lastStamp ≠ some s := by
  rw [look]
  cases t.stamp? p.path <;> simp

theorem refreshIfChanged_updated_iff :
    (p.refreshIfChanged t).updated = true ↔ (p.look t).1 = true ∧ ∃ c, p.output t = .ok c := by
  cases hb : (p.look t).1
  case true =>
    rw [refreshIfChanged_of_look hb, ← output_look p t]
    cases ho : (p.look t).2.output t
    case ok c => simp [(refresh_ok ho).left]
    case error => simp [(refresh_error ho).left]
  case false => simp [refreshIfChanged_of_not_look hb]

-- The content is set to the output, or it is left alone.
theorem refreshIfChanged_content :
    (p.refreshIfChanged t).updated = true ∧ p.output t = .ok (p.refreshIfChanged t).preview.content ∨
      (p.refreshIfChanged t).updated = false ∧ (p.refreshIfChanged t).preview.content = p.content := by
  cases hb : (p.look t).1
  case true =>
    rw [refreshIfChanged_of_look hb, ← output_look p t, look_preview]
    cases ho : Preview.output { p with lastStamp := (t.stamp? p.path).or p.lastStamp } t
    case ok    => exact .inl ⟨(refresh_ok ho).left, by rw [(refresh_ok ho).right]⟩
    case error => exact .inr ⟨(refresh_error ho).left, by rw [(refresh_error ho).right]⟩
  case false =>
    rw [refreshIfChanged_of_not_look hb, look_preview]
    exact .inr ⟨rfl, rfl⟩

end Check

namespace Watched

variable {start p : Preview} {t : Tree} {ts ts' : List Tree} {s : Stamp}

theorem mono (h : Watched start ts p) (hs : ts ⊆ ts') : Watched start ts' p where
  path := h.path
  format := h.format
  told s hl :=
    have ⟨t, ht, hp⟩ := h.told s hl
    ⟨t, hs ht, hp⟩

-- A refresh shows the present tree; without one, what was shown still is.
theorem refreshIfChanged (h : Watched start ts p) (ht : t ∈ ts) :
    Watched start ts (p.refreshIfChanged t).preview := by
  have ⟨hp, hf, hl⟩ := refreshIfChanged_keeps p t
  refine ⟨hp.trans h.path, hf.trans h.format, fun s hs => ?_⟩
  rw [hl, h.path] at hs
  cases hb : (p.look t).1
  case true =>
    have ⟨s', he, _⟩ := look_iff.mp hb
    rw [h.path] at he
    rw [he] at hs
    cases hs
    have ho : (p.look t).2.output t = start.output t :=
      (output_look p t).trans (output_eq h.path h.format t)
    rw [refreshIfChanged_of_look hb]
    exact ⟨t, ht, he, ho ▸ tells_refresh _ t⟩
  case false =>
    have hs : p.lastStamp = some s := by
      cases he : t.stamp? start.path
      case none => simpa [he] using hs
      case some s' =>
        by_contra hn
        rw [he] at hs
        cases hs
        have := look_iff.mpr ⟨s, h.path ▸ he, hn⟩
        rw [hb] at this
        contradiction
    have ⟨t', ht', he, ht⟩ := h.told s hs
    rw [refreshIfChanged_of_not_look hb, look_preview]
    exact ⟨t', ht', he, ht⟩

theorem run {es : List Event} (hw : ∀ e ∈ es, e.isWatch = true) (hp : start.lastStamp = none) (t : Tree) :
    Watched start (Moment.trees ⟨start, t⟩ es) (Moment.run ⟨start, t⟩ es).preview := by
  induction es using List.reverseRecOn
  case nil => exact ⟨rfl, rfl, fun s hs => by simp [Moment.run, hp] at hs⟩
  case append_singleton es e hi =>
    have hi := hi fun e he => hw e (List.mem_append_left _ he)
    have hm := Moment.tree_run_mem ⟨start, t⟩ es
    rw [Moment.run_concat, Moment.trees_concat]
    have he := hw e (List.mem_append_right _ (List.mem_singleton_self e))
    cases e
    case refreshIfChanged => exact (hi.refreshIfChanged hm).mono (List.subset_append_left _ _)
    case edit             => exact hi.mono (List.subset_append_left _ _)
    all_goals contradiction

-- With stamps that tell files apart, what is shown is of the present file.
theorem tells (h : Watched start ts p) (hs : StampsTell start.path ts) (ht : t ∈ ts)
    (hl : p.lastStamp = some s) (he : t.stamp? start.path = some s) : p.Tells (start.output t) := by
  have ⟨t', ht', hs', hp⟩ := h.told s hl
  have hr := hs t ht t' ht' (by rw [he]; rfl) (he.trans hs'.symm)
  exact output_congr hr ▸ hp

end Watched

-- The command that watches a script does the same.
theorem step_preview [Libraries] (w : CommandLine.Watching) :
    w.step.preview = (w.preview.refreshIfChanged w.session.tree).preview := by
  rw [CommandLine.Watching.step]
  split
  case h_1 p hl =>
    have hb : (w.preview.look w.session.tree).1 = true := by rw [hl]
    rw [refreshIfChanged_of_look hb, hl, CommandLine.Watching.refresh]
    dsimp only
    split <;> rfl
  case h_2 p hl =>
    have hb : (w.preview.look w.session.tree).1 = false := by rw [hl]
    rw [refreshIfChanged_of_not_look hb, hl]

-- While a file is only edited and refreshed when it has changed, each refresh leaves the view of the
-- file as it is, or the reason why there is none over the last view; and it answers whether it has
-- set the content.
theorem watch_loses_no_edit {path : Path} {format : Text} {t : Tree} {es : List Event}
    (hw : ∀ e ∈ es, e.isWatch = true)
    (hs : StampsTell path (Moment.trees ⟨{ path, format }, t⟩ es)) :
    let start : Moment := ⟨{ path, format }, t⟩
    let m := start.run es
    let output := start.preview.output m.tree
    let r := m.preview.refreshIfChanged m.tree
    (m.tree.exists? path = true →
      r.preview.lastError = none ∧ output = .ok r.preview.content ∨
        ∃ e, output = .error e ∧ r.preview.lastError = some e.message ∧
          r.preview.content = (((start.attempts es).filterMap Moment.view?).getLast?).getD []) ∧
      (r.updated = true ↔ (m.preview.look m.tree).1 = true ∧ ∃ c, output = .ok c) ∧
      (r.updated = true ∧ output = .ok r.preview.content ∨
        r.updated = false ∧ r.preview.content = m.preview.content) ∧
      ∀ [Libraries] (w : CommandLine.Watching), w.preview = m.preview → w.session.tree = m.tree →
        w.step.preview = r.preview := by
  intro start m output r
  have hm : Watched start.preview (start.trees es) m.preview := Watched.run hw rfl t
  have ht : m.tree ∈ start.trees es := start.tree_run_mem es
  have ho : m.preview.output m.tree = output := output_eq hm.path hm.format m.tree
  refine ⟨?shown, ?updated, ?content, ?command⟩
  case shown =>
    intro hx
    have ⟨s, he⟩ : ∃ s, m.tree.stamp? path = some s :=
      Option.isSome_iff_exists.mp (by rw [← hx, Tree.stamp?, Option.isSome_map]; rfl)
    have hl : r.preview.lastStamp = some s := by
      rw [(refreshIfChanged_keeps m.preview m.tree).right.right, hm.path, he, Option.some_or]
    have hr := (hm.refreshIfChanged ht).tells hs ht hl he
    cases hc : output
    case ok c =>
      rw [show start.preview.output m.tree = .ok c from hc] at hr
      exact .inl ⟨hr.left, congrArg _ hr.right.symm⟩
    case error e =>
      rw [show start.preview.output m.tree = .error e from hc] at hr
      have hf : Follows (start.attempts es) m.preview := .run _ t (.new path format) es
      have hk := refreshIfChanged_content.resolve_left fun h => nomatch (ho.trans hc).symm.trans h.right
      exact .inr ⟨e, rfl, hr, hk.right.trans hf.content⟩
  case updated => exact ho ▸ refreshIfChanged_updated_iff
  case content => exact ho ▸ refreshIfChanged_content
  case command =>
    intro _ w hp hw
    rw [step_preview, hp, hw]

namespace Watch

def script : Path := .ofText "a.spec.ts".toList

def suite : List UInt8 := File.Utf8.encode "test.describe('A', () => \x7b\n\x7d);".toList

-- The file is removed and comes back as it was, which no text is.
def recreation : List Event :=
  [.edit (.write script (some suite) (some 1)), .refreshIfChanged,
    .edit (.write script (some [0xff]) (some 2)), .refreshIfChanged,
    .edit (.remove script), .refreshIfChanged,
    .edit (.write script (some [0xff]) (some 2))]

def start : Moment := ⟨{ path := script, format := "gherkin".toList }, {}⟩

end Watch

open Watch in
theorem watch_loses_no_edit_recreated :
    (∀ e ∈ recreation, e.isWatch = true) ∧ StampsTell script (start.trees recreation) ∧
      (start.run recreation).tree.exists? script = true ∧
      ∃ e, start.preview.output (start.run recreation).tree = .error e ∧
        ((start.run recreation).step .refreshIfChanged).preview.lastError = some e.message ∧
        ((start.run recreation).step .refreshIfChanged).preview.content = "Feature: A".toList := by
  have hw : ∀ e ∈ recreation, e.isWatch = true := by decide
  have hs : StampsTell script (start.trees recreation) := by decide +kernel
  have hx : (start.run recreation).tree.exists? script = true := by decide +kernel
  have h := ((watch_loses_no_edit hw hs).left hx).resolve_left fun hn => absurd hn.left (by decide +kernel)
  have ⟨e, ho, hl, hc⟩ := h
  refine ⟨hw, hs, hx, e, ho, hl, hc.trans ?_⟩
  decide +kernel

end GherkinView.Preview
