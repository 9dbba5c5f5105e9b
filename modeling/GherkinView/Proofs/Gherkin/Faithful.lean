import GherkinView.Proofs.Gherkin.JsonView
import GherkinView.Proofs.Gherkin.Places
import GherkinView.Proofs.Gherkin.ReadBack
import GherkinView.Proofs.Json.Unambiguous

namespace GherkinView.Gherkin

-- Elements that `keep` has the same of are equal if what it drops, which `lines` lists, is the same too.
theorem eq_of_map_flatMap_eq {α β : Type} {keep : α → α} {lines : α → List β}
    (hl : ∀ a, (lines (keep a)).length = (lines a).length)
    (hi : ∀ a a', keep a = keep a' → lines a = lines a' → a = a') {as as' : List α}
    (hk : as.map keep = as'.map keep) (h : as.flatMap lines = as'.flatMap lines) : as = as' := by
  induction as generalizing as' <;> cases as'
  case nil.nil   => rfl
  case nil.cons  => contradiction
  case cons.nil  => contradiction
  case cons.cons a as hs a' as' =>
    obtain ⟨ha, hk⟩ := List.cons.inj hk
    rw [List.flatMap_cons, List.flatMap_cons] at h
    obtain ⟨hla, h⟩ := List.append_inj h (by rw [← hl a, ha, hl a'])
    rw [hi a a' ha hla, hs hk h]

theorem Step.eq_of_line_eq {s s' : Step} (hu : s.unplaced = s'.unplaced) (hl : s.line = s'.line) : s = s' := by
  cases s
  cases s'
  simp_all [Step.unplaced]

theorem steps_eq {ss ss' : List Step} (hu : ss.map Step.unplaced = ss'.map Step.unplaced)
    (hl : ss.map (·.line) = ss'.map (·.line)) : ss = ss' := by
  rw [List.map_eq_flatMap, List.map_eq_flatMap (l := ss')] at hl
  have hi (s s' : Step) (hu : s.unplaced = s'.unplaced) (hl : [s.line] = [s'.line]) : s = s' :=
    Step.eq_of_line_eq hu (List.singleton_inj.mp hl)
  refine eq_of_map_flatMap_eq ?_ hi hu hl
  exact fun _ => rfl

theorem Scenario.length_lines_unplaced (s : Scenario) : s.unplaced.lines.length = s.lines.length := by
  simp [Scenario.lines, Scenario.unplaced]

theorem Scenario.eq_of_lines_eq {s s' : Scenario} (hu : s.unplaced = s'.unplaced) (hl : s.lines = s'.lines) :
    s = s' := by
  have hn : s.name = s'.name := show s.unplaced.name = s'.unplaced.name by rw [hu]
  obtain ⟨hl, hls⟩ := List.cons.inj hl
  have hs := steps_eq (congrArg Scenario.steps hu) hls
  cases s
  cases s'
  simp_all

theorem length_lines_scenarios (ss : List Scenario) :
    ((ss.map Scenario.unplaced).flatMap Scenario.lines).length = (ss.flatMap Scenario.lines).length := by
  simp [List.flatMap_map, List.length_flatMap, Scenario.length_lines_unplaced]

-- The lines of the steps of a background, which may be missing.
def backgroundLines (b : Option (List Step)) : List Int :=
  (b.getD []).map (·.line)

theorem length_backgroundLines_unplaced (b : Option (List Step)) :
    (backgroundLines (b.map (·.map Step.unplaced))).length = (backgroundLines b).length := by
  cases b <;> simp [backgroundLines]

theorem background_eq {b b' : Option (List Step)}
    (hu : b.map (·.map Step.unplaced) = b'.map (·.map Step.unplaced))
    (hl : backgroundLines b = backgroundLines b') : b = b' := by
  cases b <;> cases b'
  case none.none => rfl
  case none.some => contradiction
  case some.none => contradiction
  case some.some ss ss' => rw [steps_eq (Option.some.inj hu) hl]

-- The line of the feature, and then those of what stands in it.
def Feature.allLines (f : Feature) : List Int :=
  f.line :: f.lines

theorem Feature.length_allLines_unplaced (f : Feature) : f.unplaced.allLines.length = f.allLines.length := by
  have hb := length_backgroundLines_unplaced f.background
  have hs := length_lines_scenarios f.scenarios
  unfold backgroundLines at hb
  rw [allLines, allLines, lines, lines, List.length_cons, List.length_cons, List.length_append,
    List.length_append]
  exact congrArg (· + 1) (congrArg₂ (· + ·) hb hs)

theorem Feature.eq_of_allLines_eq {f f' : Feature} (hu : f.unplaced = f'.unplaced)
    (hl : f.allLines = f'.allLines) : f = f' := by
  have hn : f.name = f'.name := show f.unplaced.name = f'.unplaced.name by rw [hu]
  have hub := congrArg Feature.background hu
  have hus := congrArg Feature.scenarios hu
  obtain ⟨hl, hls⟩ := List.cons.inj hl
  obtain ⟨hlb, hls⟩ := List.append_inj hls (show (backgroundLines f.background).length =
    (backgroundLines f'.background).length by
      rw [← length_backgroundLines_unplaced, ← length_backgroundLines_unplaced f'.background]
      exact congrArg (fun b => (backgroundLines b).length) hub)
  have hb := background_eq hub hlb
  have hs := eq_of_map_flatMap_eq Scenario.length_lines_unplaced (fun _ _ => Scenario.eq_of_lines_eq) hus hls
  cases f
  cases f'
  simp_all

namespace Document

-- The lines that the elements of the document point back to.
def allLines (d : Document) : List Int :=
  d.features.flatMap Feature.allLines

variable {d e : Document}

theorem eq_iff : d = e ↔ d.unplaced = e.unplaced ∧ d.allLines = e.allLines := by
  constructor
  case mp =>
    rintro rfl
    exact ⟨rfl, rfl⟩
  case mpr =>
    rintro ⟨hu, hl⟩
    have hf := eq_of_map_flatMap_eq Feature.length_allLines_unplaced (fun _ _ => Feature.eq_of_allLines_eq)
      (congrArg Document.features hu) hl
    cases d
    cases e
    exact congrArg _ hf

theorem toJson_inj (h : d.toJson = e.toJson) : d = e :=
  Option.some.inj (by rw [← ofJson?_toJson d, h, ofJson?_toJson])

theorem writeAs_name (d : Document) (f : Format) (title : Option Text) :
    d.writeAs f.name title = .ok (d.write title f) := by
  cases f <;> rfl

theorem render_eq_of_unplaced_eq (h : d.unplaced = e.unplaced) : d.render = e.render := by
  rw [← render_unplaced d, h, render_unplaced]

theorem writeAs_json_eq_iff (d e : Document) (title title' : Option Text) :
    (d.writeAs Format.json.name title = e.writeAs Format.json.name title' ↔
      d.unplaced = e.unplaced ∧ d.allLines = e.allLines) ∧
    (d.writeAs Format.json.name title = e.writeAs Format.json.name title' →
      d.writeAs Format.gherkin.name title = e.writeAs Format.gherkin.name title') := by
  have hj : d.writeAs Format.json.name title = e.writeAs Format.json.name title' ↔
      d.unplaced = e.unplaced ∧ d.allLines = e.allLines := by
    rw [← eq_iff, writeAs_name, writeAs_name]
    constructor
    case mp  => exact fun h => toJson_inj (Json.pretty_inj (Except.ok.inj h))
    case mpr => exact fun h => h ▸ rfl
  refine ⟨hj, fun h => ?_⟩
  rw [writeAs_name, writeAs_name]
  exact congrArg _ (render_eq_of_unplaced_eq (hj.mp h).left)

example : (Document.mk [⟨[], [], 0, none⟩]).writeAs Format.json.name none ≠
    (Document.mk [⟨[], [], 0, some []⟩]).writeAs Format.json.name none := by
  decide +kernel

end Document

end GherkinView.Gherkin
