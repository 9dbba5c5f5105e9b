import Mathlib.Data.List.ModifyLast
import GherkinView.Proofs.Gherkin.PageText
import GherkinView.Proofs.Gherkin.ReadBack

namespace GherkinView

namespace Text

-- A text with no blanks in it, so that trimming stops at it.
structure IsSolid (t : Text) : Prop where
  ne_nil : t ≠ []
  shown : ∀ c ∈ t, isBlank c = false

namespace IsSolid

variable {t indent : Text}

theorem takeWhile_append (h : t.IsSolid) (hi : ∀ c ∈ indent, isBlank c = true) (rest : Text) :
    (indent ++ (t ++ rest)).takeWhile isBlank = indent := by
  obtain ⟨c, t, rfl⟩ := List.exists_cons_of_ne_nil h.ne_nil
  rw [List.takeWhile_append_of_pos hi]
  simp [h.shown c List.mem_cons_self]

theorem trimStart_append (h : t.IsSolid) (hi : ∀ c ∈ indent, isBlank c = true) (rest : Text) :
    trimStart (indent ++ (t ++ rest)) = t ++ rest := by
  have := List.takeWhile_append_dropWhile (p := isBlank) (l := indent ++ (t ++ rest))
  rwa [h.takeWhile_append hi, List.append_cancel_left_eq] at this

theorem trimEnd_append (h : t.IsSolid) (indent rest : Text) :
    trimEnd (indent ++ t ++ rest) = indent ++ t ++ trimEnd rest := by
  by_cases hr : IsShown rest
  case pos => exact trimEnd_append_shown hr
  case neg =>
    have hb : ∀ c ∈ rest, isBlank c = true := by simpa [IsShown] using hr
    have hn : trimEnd rest = [] := trimEnd_append_blank (t := []) hb
    rw [trimEnd_append_blank hb, hn, List.append_nil, trimEnd_eq_self]
    intro c hc
    rw [List.getLast?_append_of_ne_nil _ h.ne_nil] at hc
    exact h.shown c (List.mem_of_getLast? hc)

end IsSolid

end Text

namespace Gherkin

open Text

theorem Section.isSolid_header (s : Section) : s.header.IsSolid := by
  have h : s.header.all (!isBlank ·) = true := by cases s <;> decide
  exact ⟨by cases s <;> decide, by simpa using h⟩

theorem Keyword.isSolid_name (k : Keyword) : k.name.IsSolid := by
  have h : k.name.all (!isBlank ·) = true := by cases k <;> decide
  exact ⟨by cases k <;> decide, by simpa using h⟩

-- No keyword starts with another one.
theorem Keyword.after?_name (k k' : Keyword) (rest : Text) :
    after? k'.name (k.name ++ rest) = if k' = k then some rest else none := by
  cases k <;> cases k' <;> rfl

namespace PageLine

-- A line that shows what it is: a header or a keyword stands behind blanks only, and the keyword is a word.
def IsApparent : PageLine → Prop
  | header _ indent _ => ∀ c ∈ indent, isBlank c = true
  | step _ indent rest => (∀ c ∈ indent, isBlank c = true) ∧ ∀ c ∈ rest.head?, isWord c = false
  | plain line => line = []

def trimEnd : PageLine → PageLine
  | header s indent rest => header s indent (Text.trimEnd rest)
  | step k indent rest => step k indent (Text.trimEnd rest)
  | plain line => plain (Text.trimEnd line)

variable {indent rest : Text} {pl : PageLine}

theorem ofLine_header (hi : ∀ c ∈ indent, isBlank c = true) (s : Section) (rest : Text) :
    ofLine (indent ++ (s.header ++ rest)) = header s indent rest := by
  have ho : ofHeader? (indent ++ (s.header ++ rest)) = some (header s indent rest) := by
    rw [ofHeader?, s.isSolid_header.takeWhile_append hi, s.isSolid_header.trimStart_append hi]
    cases s <;> rfl
  rw [ofLine, ho]
  rfl

theorem ofLine_step (hi : ∀ c ∈ indent, isBlank c = true) (k : Keyword) (hr : ∀ c ∈ rest.head?, isWord c = false) :
    ofLine (indent ++ (k.name ++ rest)) = step k indent rest := by
  have hn : ofHeader? (indent ++ (k.name ++ rest)) = none := by
    rw [ofHeader?, k.isSolid_name.takeWhile_append hi, k.isSolid_name.trimStart_append hi]
    cases k <;> rfl
  have hw : (some rest).filter (fun r => !r.head?.any isWord) = some rest := by
    cases rest
    case nil      => rfl
    case cons c r => simp [hr c rfl]
  have ho : ofStep? (indent ++ (k.name ++ rest)) = some (step k indent rest) := by
    rw [ofStep?, k.isSolid_name.takeWhile_append hi, k.isSolid_name.trimStart_append hi]
    cases k <;> simp [Keyword.all, Keyword.after?_name, hw]
  rw [ofLine, hn, ho]
  rfl

-- It is told as what it is.
theorem ofLine_text (h : pl.IsApparent) : ofLine pl.text = pl := by
  cases pl
  case header s indent rest => rw [text, List.append_assoc, ofLine_header h]
  case step k indent rest   => rw [text, List.append_assoc, ofLine_step h.left k h.right]
  case plain line           => rw [show line = [] from h]; rfl

theorem text_trimEnd (pl : PageLine) : pl.trimEnd.text = Text.trimEnd pl.text := by
  cases pl
  case header s indent rest => exact (s.isSolid_header.trimEnd_append indent rest).symm
  case step k indent rest   => exact (k.isSolid_name.trimEnd_append indent rest).symm
  case plain                => rfl

theorem IsApparent.trimEnd (h : pl.IsApparent) : pl.trimEnd.IsApparent := by
  cases pl
  case header => exact h
  case plain  => exact (congrArg Text.trimEnd h).trans rfl
  case step k indent rest =>
    refine ⟨h.left, fun c hc => h.right c ?_⟩
    obtain ⟨u, _, he⟩ := trimEnd_append_trimmed rest
    rw [← he]
    exact List.mem_head?_append_of_mem_head? hc

end PageLine

-- A row as it is shown on the page.
def Row.pageLine : Row → PageLine
  | feature name => .header .feature [] (' ' :: name)
  | background => .header .background "  ".toList []
  | scenario name => .header .scenario "  ".toList (' ' :: name)
  | step keyword text => .step keyword "    ".toList (' ' :: text)
  | separator => .plain []

theorem Row.text_pageLine (r : Row) : r.pageLine.text = r.text := by
  cases r
  case step k t => cases k <;> rfl
  all_goals rfl

theorem Row.isApparent_pageLine (r : Row) : r.pageLine.IsApparent := by
  have hs : isWord ' ' = false := by decide
  have hi {n : Nat} : ∀ c ∈ List.replicate n ' ', isBlank c = true := by
    intro c hc
    rw [List.eq_of_mem_replicate hc]
    decide
  cases r
  case feature    => exact nofun
  case background => exact hi (n := 2)
  case scenario   => exact hi (n := 2)
  case step       => exact ⟨hi (n := 4), by simpa using hs⟩
  case separator  => rfl

theorem Row.ofLine_text (r : Row) : PageLine.ofLine r.text = r.pageLine := by
  rw [← r.text_pageLine, PageLine.ofLine_text r.isApparent_pageLine]

-- The end of a row is the only thing that trimming takes.
theorem Row.ofLine_trimEnd (r : Row) : PageLine.ofLine (Text.trimEnd r.text) = r.pageLine.trimEnd := by
  rw [← r.text_pageLine, ← PageLine.text_trimEnd, PageLine.ofLine_text r.isApparent_pageLine.trimEnd]

-- The page sets off what the document has: each line is the row it was written for, and only the last one has lost
-- the blanks at its end.
theorem Document.lines_render {d : Document} (h : d.IsUnbroken) :
    Page.lines d.render = (d.rows.dropLast.map Row.pageLine).modifyLast PageLine.trimEnd := by
  by_cases hd : d.features = []
  case pos =>
    obtain rfl : d = {} := by cases d; cases hd; rfl
    rfl
  case neg =>
    obtain ⟨before, last, he, _⟩ := rows_closed hd
    have hr : d.rows.dropLast = before ++ [last] := by rw [he, List.dropLast_concat]
    have hs : d.shown = before.map Row.text ++ [Text.trimEnd last.text] := by
      rw [shown, hr, List.map_append, List.map_singleton, settle_concat]
    have hn : ∀ l ∈ d.shown, '\n' ∉ l := by
      refine newline_not_mem_settle fun l hl => ?_
      obtain ⟨r, hr, rfl⟩ := List.mem_map.mp hl
      exact h.newline_not_mem (List.mem_of_mem_dropLast hr)
    have hg : d.render ≠ [] := by
      obtain ⟨t, ht⟩ := unlines_layout hd
      exact List.ne_nil_of_mem (mem_trim_of_mem (c := 'F') (ht ▸ List.mem_cons_self) (by decide))
    have hl : PageLine.ofLine ∘ Row.text = Row.pageLine := funext Row.ofLine_text
    rw [Page.lines, if_neg (mt List.isEmpty_iff.mp hg), render_eq, lines_unlines (by simp [hs]) hn, hs, hr,
      List.map_append, List.map_map, hl, List.map_append, List.map_singleton, List.map_singleton,
      List.modifyLast_concat, Row.ofLine_trimEnd]

theorem lines_render_lookalikes :
    lookalikes.IsUnbroken ∧ Page.lines lookalikes.render =
      (lookalikes.rows.dropLast.map Row.pageLine).modifyLast PageLine.trimEnd := by
  have h : lookalikes.IsUnbroken := ⟨by decide, by decide, by decide⟩
  exact ⟨h, Document.lines_render h⟩

-- A step without a text comes last, behind a name that looks like one.
example : Page.lines (Document.render ⟨[{ name := "Given: ".toList, scenarios := [
      { name := "Then".toList, steps := [⟨.action, "  ".toList, 0⟩] }] }]⟩) =
    [.header .feature [] " Given: ".toList, .plain [], .header .scenario "  ".toList " Then".toList,
      .step .action "    ".toList []] := by
  decide +kernel

end Gherkin
end GherkinView
