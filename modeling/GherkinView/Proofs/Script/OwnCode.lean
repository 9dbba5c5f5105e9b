import GherkinView.Proofs.Script.Attachment
import GherkinView.Proofs.Script.Extent
import GherkinView.Sentence.Splice

namespace GherkinView.Script

-- Markers of any kind, those of steps without a label too.
def LineKind.isMarker : LineKind → Bool
  | close | other => false
  | _ => true

def IsMarkerAt (ls : List Text) (i : Nat) : Prop :=
  ∃ kind ∈ kindAt? ls i, kind.isMarker = true

-- The code of the step on line `i`, if there is any, is a block that opens before the next marker line.
def OwnsCode (source : Text) (i : Nat) : Prop :=
  ∀ label code, kindAt? (Text.lines source) i = some (.step label code) → code ≠ [] →
    ∃ b e, IsExtent (Text.lines source) i b e ∧
      code = Text.trim (Text.unlines (linesBetween (Text.lines source) b e)) ∧
      ∀ k, i < k → IsMarkerAt (Text.lines source) k → b < k

theorem code_of_kindAt? {ls : List Text} {i : Nat} {label code : Text}
    (h : kindAt? ls i = some (.step label code)) : code = captureBlock (ls.drop i) := by
  obtain ⟨line, _, hk⟩ := exists_of_kindAt? h
  exact (LineKind.isStep_of_step hk.symm).right.right

-- A step owns its code exactly if, wherever a brace opens on its line or behind it, one opens before
-- the next marker line.
theorem ownsCode_iff (source : Text) (i : Nat) :
    OwnsCode source i ↔ (IsStepAt (Text.lines source) i →
      (∃ b, i ≤ b ∧ HasBrace (Text.lines source) b) →
        ∀ k, i < k → IsMarkerAt (Text.lines source) k →
          ∃ b < k, i ≤ b ∧ HasBrace (Text.lines source) b) := by
  constructor
  case mp =>
    rintro h ⟨label, code, hk⟩ ⟨b, hib, hb⟩ k hik hm
    obtain ⟨_, _, hf⟩ := exists_isFirstBrace hib hb
    have hc : '{' ∈ code := code_of_kindAt? hk ▸ brace_mem_captureBlock hf
    obtain ⟨b', _, he, _, hl⟩ := h label code hk (List.ne_nil_of_mem hc)
    exact ⟨b', hl k hik hm, he.opening.le, he.opening.brace⟩
  case mpr =>
    intro h label code hk hc
    rw [code_of_kindAt? hk] at hc
    have hb : ∃ b, i ≤ b ∧ HasBrace (Text.lines source) b := by
      by_contra hn
      exact hc (captureBlock_of_no_brace fun b hib hb => hn ⟨b, hib, hb⟩)
    obtain ⟨b, hib, hb⟩ := hb
    obtain ⟨b', _, hf⟩ := exists_isFirstBrace hib hb
    obtain ⟨e, he, _⟩ := hf.exists_extent
    refine ⟨b', e, he, (code_of_kindAt? hk).trans (captureBlock_of_extent he), fun k hik hm => ?_⟩
    obtain ⟨b'', hbk, hib, hb⟩ := h ⟨label, code, hk⟩ ⟨b, hib, hb⟩ k hik hm
    by_contra hkb
    exact hf.first b'' (by omega) hib hb

-- The first step names its callback, and the next one opens a block.
def named : Text := Text.unlines [
  "test.describe('A', () => \x7b".toList,
  "  test('x', async () => \x7b".toList,
  "    await test.step('open', openPage);".toList,
  "    await test.step('search', async () => \x7b".toList,
  "      await page.fill('tea');".toList,
  "    \x7d);".toList,
  "  \x7d);".toList,
  "\x7d);".toList]

instance (ls : List Text) : DecidablePred (IsMarkerAt ls) := fun i =>
  inferInstanceAs (Decidable (∃ kind ∈ kindAt? ls i, kind.isMarker = true))

instance (ls : List Text) : DecidablePred (HasBrace ls) := fun i =>
  inferInstanceAs (Decidable (∃ line ∈ ls[i]?, '{' ∈ line))

-- It gets the block of that step, and is told with its value.
theorem named_not_ownsCode :
    ¬OwnsCode named 2 ∧ ∃ u ∈ (read named).suites, ∃ c ∈ u.cases, ∃ s ∈ c.steps,
      s.line = 3 ∧ Sentence.value? s.code = some "tea".toList := by
  constructor
  case right => decide +kernel
  case left =>
    intro h
    have hk : kindAt? (Text.lines named) 2 =
        some (.step "open".toList (captureBlock ((Text.lines named).drop 2))) := by decide +kernel
    have hc : captureBlock ((Text.lines named).drop 2) ≠ [] := by decide +kernel
    have hm : IsMarkerAt (Text.lines named) 3 := by decide +kernel
    obtain ⟨b, _, he, _, hl⟩ := h _ _ hk hc
    have hb : b = 2 := by
      have := hl 3 (by decide) hm
      have := he.opening.le
      omega
    exact absurd (hb ▸ he.opening.brace) (by decide +kernel)

end GherkinView.Script
