import GherkinView.Conversion
import GherkinView.Proofs.Script.Extent
import GherkinView.Proofs.Script.Segment
import GherkinView.Proofs.Text.Alike

namespace GherkinView

namespace Script

-- Without the blanks around the lines of the code.
def Step.trimLines (s : Step) : Step := { s with code := Text.trimLines s.code }

def Case.trimLines (c : Case) : Case := { c with steps := c.steps.map Step.trimLines }

def Suite.trimLines (s : Suite) : Suite :=
  { s with
    cases := s.cases.map Case.trimLines
    background := s.background.map (·.map Step.trimLines) }

def LineKind.trimLines : LineKind → LineKind
  | step label code => step label (Text.trimLines code)
  | kind => kind

def Line.trimLines (l : Line) : Line := { l with kind := l.kind.trimLines }

def Collector.trimLines : Collector → Collector
  | nothing => nothing
  | setup steps => setup (steps.map Step.trimLines)
  | case name line steps => case name line (steps.map Step.trimLines)

def Reader.trimLines (r : Reader) : Reader :=
  ⟨r.done.map Suite.trimLines, r.suite.map Suite.trimLines, r.collector.trimLines⟩

section Braces

variable {t : Text} {ls : List Text}

-- Blanks are no braces.
theorem Block.depthAfter_of_blank (h : ∀ c ∈ t, Text.isBlank c = true) (d : Option Int) :
    depthAfter d t = d := by
  induction t
  case nil => rfl
  case cons c t hi =>
    simp only [List.mem_cons, forall_eq_or_imp] at h
    have ho : c ≠ '{' := fun he => absurd (he ▸ h.left) (by decide)
    have hc : c ≠ '}' := fun he => absurd (he ▸ h.left) (by decide)
    have hd : depth d c = d := by cases d <;> simp [depth, ho, hc]
    rw [depthAfter, List.foldl_cons, hd]
    exact hi h.right

theorem Block.depthAfter_append (d : Option Int) (t u : Text) :
    depthAfter d (t ++ u) = depthAfter (depthAfter d t) u :=
  List.foldl_append

theorem Block.depthAfter_trim (d : Option Int) (t : Text) :
    depthAfter d (Text.trim t) = depthAfter d t := by
  obtain ⟨u, v, hu, hv, he⟩ := Text.exists_blanks_trim t
  conv_rhs => rw [he]
  rw [depthAfter_append, depthAfter_append, depthAfter_of_blank hu, depthAfter_of_blank hv]

theorem netBraces_trim (t : Text) : netBraces (Text.trim t) = netBraces t := by
  have h := Block.depthAfter_trim (some 0) t
  rwa [Block.depthAfter_some, Block.depthAfter_some, Int.zero_add, Int.zero_add, Option.some.injEq] at h

theorem depthBehind_map_trim (ls : List Text) (n : Nat) :
    depthBehind (ls.map Text.trim) n = depthBehind ls n := by
  induction ls generalizing n
  case nil => rfl
  case cons l ls hi =>
    cases n
    case zero   => simp
    case succ n => rw [List.map_cons, depthBehind_cons_succ, depthBehind_cons_succ, netBraces_trim, hi]

theorem Block.takeLines_map_trim (d : Option Int) (ls : List Text) :
    takeLines d (ls.map Text.trim) = (takeLines d ls).map Text.trim := by
  induction ls generalizing d
  case nil => rfl
  case cons l ls hi =>
    rw [List.map_cons, takeLines, takeLines, depthAfter_trim]
    cases depthAfter d l
    case none   => exact hi none
    case some k => by_cases hk : k ≤ 0 <;> simp [hk, hi]

theorem Block.takeLines_sublist (d : Option Int) (ls : List Text) : (takeLines d ls).Sublist ls := by
  induction ls generalizing d
  case nil => exact .slnil
  case cons l ls hi =>
    rw [takeLines]
    cases depthAfter d l
    case none   => exact (hi none).cons l
    case some k =>
      by_cases hk : k ≤ 0
      case pos => simp [hk]
      case neg => simpa [hk] using hi (some k)

-- The code of the trimmed lines is the same, line by line.
theorem alike_captureBlock (h : ∀ l ∈ ls, '\n' ∉ l) :
    Text.Alike (captureBlock (ls.map Text.trim)) (captureBlock ls) := by
  have hn (l) (hl : l ∈ Block.takeLines none ls) := h l ((Block.takeLines_sublist none ls).subset hl)
  rw [captureBlock, captureBlock, Block.takeLines_map_trim]
  refine (Text.Alike.unlines ?_ hn ?_).trim
  case refine_1 => exact List.forall_mem_map.mpr fun l hl hm => hn l hl (Text.mem_of_mem_trim hm)
  case refine_2 => simp only [List.map_map, Function.comp_def, Text.trim_trim]

end Braces

section Lines

variable {ls : List Text}

theorem LineKind.trimLines_of {depth : Int} {line : Text} (h : ∀ l ∈ ls, '\n' ∉ l) :
    (of depth (Text.trim line) (ls.map Text.trim)).trimLines = (of depth line ls).trimLines := by
  have hc := Text.trimLines_eq_iff.mpr (alike_captureBlock h)
  simp only [of, Text.trim_trim]
  split_ifs <;> try rfl
  case pos =>
    cases labelOf? (Text.trim line)
    case none => rfl
    case some => simp only [trimLines, hc]

-- What a line is depends on the trimmed lines only.
theorem trimLines_classify (h : ∀ l ∈ ls, '\n' ∉ l) :
    (classify (ls.map Text.trim)).map Line.trimLines = (classify ls).map Line.trimLines := by
  refine List.ext_getElem (by simp [classify]) fun i _ _ => ?_
  have hd : ∀ l ∈ ls.drop i, '\n' ∉ l := fun l hl => h l (List.mem_of_mem_drop hl)
  simp only [classify, lineAt, List.getElem_map, List.getElem_mapIdx, depthBehind_map_trim,
    Line.trimLines, ← List.map_drop, LineKind.trimLines_of hd]

end Lines

theorem Collector.trimLines_add (s : Step) (c : Collector) :
    (c.add s).trimLines = c.trimLines.add s.trimLines := by
  cases c <;> simp [add, trimLines]

theorem Collector.trimLines_handOverCase (s : Suite) (c : Collector) :
    (c.handOverCase s).trimLines = c.trimLines.handOverCase s.trimLines := by
  cases c <;> simp [handOverCase, trimLines, Suite.trimLines, Case.trimLines]

theorem Collector.trimLines_handOver (s : Suite) (c : Collector) :
    (c.handOver s).trimLines = c.trimLines.handOver s.trimLines := by
  cases c
  case setup steps => cases steps <;> simp [handOver, trimLines, Suite.trimLines]
  all_goals exact trimLines_handOverCase s _

-- The reader does not look into the code: one step of it, and all its steps.
theorem Reader.trimLines_step (r : Reader) (l : Line) :
    (r.step l).trimLines = r.trimLines.step l.trimLines := by
  have ⟨done, suite, collector⟩ := r
  have ⟨number, kind⟩ := l
  cases kind
  case unlabelled | other => rfl
  case suite =>
    simp [step, trimLines, Line.trimLines, LineKind.trimLines, Collector.trimLines, Suite.trimLines,
      Option.toList_map]
  case step =>
    simp [step, trimLines, Line.trimLines, LineKind.trimLines, Collector.trimLines_add, Step.trimLines]
  case setup | case | close =>
    cases suite <;> simp [step, trimLines, Line.trimLines, LineKind.trimLines,
      Collector.trimLines_handOverCase, Collector.trimLines_handOver, Collector.trimLines]

theorem Reader.trimLines_foldl (r : Reader) (ls : List Line) :
    (ls.foldl step r).trimLines = (ls.map Line.trimLines).foldl step r.trimLines := by
  induction ls generalizing r
  case nil => rfl
  case cons l ls hi => rw [List.foldl_cons, hi, trimLines_step, List.map_cons, List.foldl_cons]

theorem suites_ofLines_trimLines (ls : List Line) :
    (ofLines (ls.map Line.trimLines)).suites = (ofLines ls).suites.map Suite.trimLines := by
  have h : (ls.foldl Reader.step {}).trimLines = (ls.map Line.trimLines).foldl Reader.step {} :=
    Reader.trimLines_foldl {} ls
  rw [ofLines, ← h]
  simp [ofLines, Reader.suites, Reader.trimLines, Option.toList_map]

theorem trimLines_suites_read {a b : Text} (h : Text.Alike a b) :
    (read a).suites.map Suite.trimLines = (read b).suites.map Suite.trimLines := by
  have hs (t : Text) : (read t).suites.map Suite.trimLines =
      (ofLines ((classify ((Text.lines t).map Text.trim)).map Line.trimLines)).suites := by
    rw [trimLines_classify fun _ => Text.not_mem_of_mem_lines, suites_ofLines_trimLines,
      read_eq_ofLines]
  rw [hs a, hs b, h]

end Script

namespace Gherkin

-- Without the texts of the steps.
def Step.untold (s : Step) : Step := { s with text := [] }

def Scenario.untold (s : Scenario) : Scenario := { s with steps := s.steps.map Step.untold }

def Feature.untold (f : Feature) : Feature :=
  { f with
    scenarios := f.scenarios.map Scenario.untold
    background := f.background.map (·.map Step.untold) }

def Document.untold (d : Document) : Document :=
  ⟨d.features.map Feature.untold⟩

-- Only the texts come from the code.
theorem untold_tellSteps (keyword : Text → Int → Keyword) (steps : List Script.Step) :
    (tellSteps keyword (steps.map Script.Step.trimLines)).map Step.untold =
      (tellSteps keyword steps).map Step.untold := by
  apply List.ext_getElem <;>
    simp [tellSteps, Step.untold, Step.ofScript, Script.Step.trimLines]

theorem untold_ofSuite (u : Script.Suite) :
    (Feature.ofSuite u.trimLines).untold = (Feature.ofSuite u).untold := by
  have hc (c : Script.Case) : (Scenario.ofCase c.trimLines).untold = (Scenario.ofCase c).untold := by
    simp only [Scenario.untold, Scenario.ofCase, Script.Case.trimLines, scenarioSteps, untold_tellSteps]
  simp only [Feature.untold, Feature.ofSuite, Script.Suite.trimLines, backgroundSteps, List.map_map,
    Option.map_map, Function.comp_def, hc, untold_tellSteps]

theorem untold_documentOf (source : Text) : (documentOf source).untold =
    ⟨((Script.read source).suites.map Script.Suite.trimLines).map fun u => (Feature.ofSuite u).untold⟩ := by
  simp only [documentOf, Document.ofScript, Document.untold, List.map_map, Function.comp_def,
    untold_ofSuite]

end Gherkin

-- Scripts that are alike have the same suites, cases, backgrounds and steps, from the same lines and
-- with code that is alike, and what is told from them has the same keywords.
theorem read_alike {a b : Text} (h : Text.Alike a b) :
    (Script.read a).suites.map Script.Suite.trimLines = (Script.read b).suites.map Script.Suite.trimLines ∧
      (documentOf a).untold = (documentOf b).untold := by
  have hs := Script.trimLines_suites_read h
  refine ⟨hs, ?_⟩
  rw [Gherkin.untold_documentOf, Gherkin.untold_documentOf, hs]

-- The step has no end of its own, so that its code runs to the end of the script.
def Script.indented : Text := Text.unlines [
  "test.describe('A', () => \x7b".toList,
  "  test('x', async () => \x7b".toList,
  "    await test.step('enter a name', async () => \x7b".toList,
  "      await page.fill('Ann');".toList,
  "  test('y', async () => \x7b".toList,
  "".toList]

-- The same script without indentation, and with carriage returns at the ends of its lines.
def Script.returned : Text := Text.unlines [
  "test.describe('A', () => \x7b\r".toList,
  "test('x', async () => \x7b\r".toList,
  "await test.step('enter a name', async () => \x7b\r".toList,
  "await page.fill('Ann');\r".toList,
  "test('y', async () => \x7b\r".toList,
  "\t\r".toList]

-- They are read the same only up to the layout of the code.
theorem read_indented_returned :
    Text.Alike Script.indented Script.returned ∧
      (Script.read Script.indented).suites ≠ (Script.read Script.returned).suites ∧
      (Script.read Script.indented).suites.map Script.Suite.trimLines =
        (Script.read Script.returned).suites.map Script.Suite.trimLines ∧
      (documentOf Script.indented).untold = (documentOf Script.returned).untold :=
  ⟨by decide +kernel, by decide +kernel, read_alike (by decide +kernel)⟩

end GherkinView
