import GherkinView.Proofs.Script.Attachment

namespace GherkinView

namespace Text

variable {t u : Text} {c : Char}

theorem unquoted_of_blank (h : ∀ c ∈ t, isBlank c = true) : Unquoted t := by
  intro c hc
  by_contra hq
  have hq := isQuote_iff.mp (Bool.not_eq_false _ ▸ hq)
  have hb := h c hc
  obtain rfl | rfl | rfl := hq <;> exact absurd hb (by decide)

-- What comes behind the last quote mark starts no literal and ends none.
theorem literals.scan_append_right (h : Unquoted u) (state : Option Text) (t : Text) :
    scan state (t ++ u) = scan state t := by
  induction t generalizing state
  case nil => rw [List.nil_append, scan_eq_nil h, scan]
  case cons c t hi => cases state <;> simp [scan, hi]

theorem literals_trim (t : Text) : literals (trim t) = literals t := by
  obtain ⟨u, v, hu, hv, he⟩ := exists_blanks_trim t
  conv_rhs => rw [he]
  rw [literals, literals, literals.scan_append (unquoted_of_blank hu),
    literals.scan_append_right (unquoted_of_blank hv), Option.map_none]

theorem firstLiteral?_trim (t : Text) : firstLiteral? (trim t) = firstLiteral? t := by
  rw [firstLiteral?, firstLiteral?, literals_trim]

-- A text without quote marks is a literal between any two of them.
theorem firstLiteral?_of_unquoted {quote quote' : Char} {before after : Text}
    (hb : Unquoted before) (ht : Unquoted t) (hq : isQuote quote = true) (hq' : isQuote quote' = true) :
    firstLiteral? (before ++ quote :: (t ++ quote' :: after)) = some t := by
  rw [firstLiteral?, literals_append_quote hb hq, literals.scan_append_quote ht hq', List.head?_cons]

end Text

namespace Script

open Text

-- Lines that stand for something with a label: suites, cases and steps, those without one too.
def LineKind.takesLabel : LineKind → Bool
  | suite _ | case _ | step _ _ | unlabelled => true
  | _ => false

def TakesLabelAt (ls : List Text) (i : Nat) : Prop :=
  ∃ kind ∈ kindAt? ls i, kind.takesLabel = true

instance (ls : List Text) : DecidablePred (TakesLabelAt ls) := fun i =>
  inferInstanceAs (Decidable (∃ kind ∈ kindAt? ls i, kind.takesLabel = true))

-- The first quote mark of line `i` is `quote`, and `label` stands before the next one of that kind, as it
-- is and not with escapes.
structure IsLabelled (ls : List Text) (i : Nat) (quote : Char) (label : Text) : Prop where
  mark : isQuote quote = true
  stands : ∃ before after, ls[i]? = some (before ++ quote :: (label ++ quote :: after)) ∧ Unquoted before
  whole : quote ∉ label
  plain : '\\' ∉ label

-- The line is read with the label, and so is all that comes from it.
structure BearsLabel (source : Text) (i : Nat) (label : Text) : Prop where
  line : (kindAt? (lines source) i).bind LineKind.label? = some label
  suite : ∀ u ∈ (read source).suites, u.line = i + 1 → u.name = label
  case : ∀ u ∈ (read source).suites, ∀ c ∈ u.cases, c.line = i + 1 → c.name = label
  step : ∀ u ∈ (read source).suites, ∀ s ∈ u.steps, s.line = i + 1 → s.label = label

section Label

variable {depth : Int} {line label : Text} {ls : List Text}

theorem LineKind.unquoted_label (h : (of depth line ls).label? = some label) : Unquoted label := by
  obtain rfl | rfl | h := label_cases h
  · decide
  · decide
  · exact fun c hc => (mem_of_firstLiteral? h hc).right

theorem LineKind.label?_of_takesLabel (hk : (of depth line ls).takesLabel = true)
    (hl : labelOf? (trim line) = some label) : (of depth line ls).label? = some label := by
  simp only [of, hl, Option.getD_some] at hk ⊢
  split_ifs at hk ⊢ <;> first | rfl | contradiction

end Label

section Line

variable {source label : Text} {ls : List Text} {i : Nat} {quote : Char}

theorem kindAt?_of_mem {l : Line} {n : Int} (h : l ∈ classify ls) (hn : n = l.number) (hi : n = i + 1) :
    kindAt? ls i = some l.kind := by
  obtain ⟨j, hl⟩ := List.mem_iff_getElem?.mp h
  have hj := number_of_getElem? hl
  obtain rfl : j = i := by omega
  rw [kindAt?, hl, Option.map_some]

theorem line_of_step? {l : Line} {s : Step} (h : l.step? = some s) : s.line = l.number := by
  unfold Line.step? at h
  split at h <;> cases h
  rfl

theorem eq_of_mem_classify {l : Line} {n : Int} {x : Text} (hl : l ∈ classify ls) (hn : n = l.number)
    (hi : n = i + 1) (hk : l.kind.label? = some x)
    (h : (kindAt? ls i).bind LineKind.label? = some label) : x = label := by
  rw [kindAt?_of_mem hl hn hi, Option.bind_some, hk] at h
  exact Option.some.inj h

-- What comes from a line has the label of that line.
theorem BearsLabel.of_line (h : (kindAt? (lines source) i).bind LineKind.label? = some label) :
    BearsLabel source i label where
  line := h
  suite _ hu hi :=
    have ⟨_, hl, hk, hn⟩ := exists_line_of_suite (mem_suites_read.mp hu)
    eq_of_mem_classify hl hn hi (hk ▸ rfl) h
  case _ hu _ hc hi :=
    have ⟨_, hl, hk, hn⟩ := exists_line_of_case (mem_suites_read.mp hu) hc
    eq_of_mem_classify hl hn hi (hk ▸ rfl) h
  step _ hu _ hs hi :=
    have ⟨_, hl, hk⟩ := exists_line_of_step (mem_suites_read.mp hu) hs
    eq_of_mem_classify hl (line_of_step? hk) hi (label?_of_step? hk) h

theorem IsLabelled.labelOf?_eq (h : IsLabelled ls i quote label) (hu : Unquoted label) (hn : label ≠ []) :
    ∀ line ∈ ls[i]?, labelOf? (trim line) = some label := by
  obtain ⟨before, after, hl, hb⟩ := h.stands
  intro line hm
  obtain rfl := Option.some.inj (hl.symm.trans hm)
  rw [labelOf?, firstLiteral?_trim, firstLiteral?_of_unquoted hb hu h.mark h.mark]
  simpa [Option.filter_eq_some_iff] using hn

end Line

-- A label between two quote marks of a kind is taken whole exactly if it holds no quote mark of another
-- kind either.
theorem bearsLabel_iff {source label : Text} {i : Nat} {quote : Char}
    (hl : IsLabelled (lines source) i quote label) (ht : TakesLabelAt (lines source) i) (hn : label ≠ []) :
    BearsLabel source i label ↔ Unquoted label := by
  obtain ⟨kind, hk, ht⟩ := ht
  obtain ⟨line, hi, rfl⟩ := exists_of_kindAt? hk
  constructor
  case mp =>
    intro h
    have h := h.line
    rw [hk] at h
    exact LineKind.unquoted_label h
  case mpr =>
    intro hu
    refine .of_line ?_
    rw [hk]
    exact LineKind.label?_of_takesLabel ht (hl.labelOf?_eq hu hn line hi)

-- Other quote marks stand behind a label.
def tagged : Text := unlines [
  "test.describe(\x22Cart\x22, () => \x7b".toList,
  "  test('adds', \x7b tag: \x22@fast\x22 \x7d, async () => \x7b".toList,
  "    await test.step(\x60open\x60, async () => \x7b\x7d);".toList,
  "  \x7d);".toList,
  "\x7d);".toList]

theorem bearsLabel_tagged : BearsLabel tagged 0 "Cart".toList ∧ BearsLabel tagged 1 "adds".toList ∧
    BearsLabel tagged 2 "open".toList := by
  have hs : IsLabelled (lines tagged) 0 '\x22' "Cart".toList :=
    ⟨rfl, ⟨"test.describe(".toList, ", () => \x7b".toList, by decide +kernel, by decide⟩, by decide, by decide⟩
  have hc : IsLabelled (lines tagged) 1 '\x27' "adds".toList :=
    ⟨rfl, ⟨"  test(".toList, ", \x7b tag: \x22@fast\x22 \x7d, async () => \x7b".toList, by decide +kernel,
      by decide⟩, by decide, by decide⟩
  have ht : IsLabelled (lines tagged) 2 '\x60' "open".toList :=
    ⟨rfl, ⟨"    await test.step(".toList, ", async () => \x7b\x7d);".toList, by decide +kernel, by decide⟩,
      by decide, by decide⟩
  exact ⟨(bearsLabel_iff hs (by decide +kernel) (by decide)).mpr (by decide),
    (bearsLabel_iff hc (by decide +kernel) (by decide)).mpr (by decide),
    (bearsLabel_iff ht (by decide +kernel) (by decide)).mpr (by decide)⟩

-- Every label holds a quote mark of another kind.
def quoted : Text := unlines [
  "test.describe(\x22Ann's cart\x22, () => \x7b".toList,
  "  test('the \x22Buy\x22 button', async () => \x7b".toList,
  "    await test.step(\x22open Ann's cart\x22, async () => \x7b\x7d);".toList,
  "  \x7d);".toList,
  "\x7d);".toList]

-- None of them is taken whole: each ends at that mark.
theorem quoted_not_bearsLabel :
    (IsLabelled (lines quoted) 0 '\x22' "Ann's cart".toList ∧ TakesLabelAt (lines quoted) 0 ∧
      ¬BearsLabel quoted 0 "Ann's cart".toList) ∧
    (IsLabelled (lines quoted) 1 '\x27' "the \x22Buy\x22 button".toList ∧ TakesLabelAt (lines quoted) 1 ∧
      ¬BearsLabel quoted 1 "the \x22Buy\x22 button".toList) ∧
    IsLabelled (lines quoted) 2 '\x22' "open Ann's cart".toList ∧ TakesLabelAt (lines quoted) 2 ∧
      ¬BearsLabel quoted 2 "open Ann's cart".toList := by
  have hs : kindAt? (lines quoted) 0 = some (.suite "Ann".toList) := by decide +kernel
  have hc : kindAt? (lines quoted) 1 = some (.case "the ".toList) := by decide +kernel
  have ht : kindAt? (lines quoted) 2 = some (.step "open Ann".toList
      "await test.step(\x22open Ann's cart\x22, async () => \x7b\x7d);".toList) := by decide +kernel
  refine ⟨⟨?suite, ⟨_, hs, rfl⟩, fun h => ?_⟩, ⟨?case, ⟨_, hc, rfl⟩, fun h => ?_⟩, ?step, ⟨_, ht, rfl⟩,
    fun h => ?_⟩
  case suite =>
    exact ⟨rfl, ⟨"test.describe(".toList, ", () => \x7b".toList, by decide +kernel, by decide⟩, by decide,
      by decide⟩
  case case =>
    exact ⟨rfl, ⟨"  test(".toList, ", async () => \x7b".toList, by decide +kernel, by decide⟩, by decide,
      by decide⟩
  case step =>
    exact ⟨rfl, ⟨"    await test.step(".toList, ", async () => \x7b\x7d);".toList, by decide +kernel,
      by decide⟩, by decide, by decide⟩
  case refine_1 => exact absurd (hs ▸ h.line) (by decide)
  case refine_2 => exact absurd (hc ▸ h.line) (by decide)
  case refine_3 => exact absurd (ht ▸ h.line) (by decide)

end Script
end GherkinView
