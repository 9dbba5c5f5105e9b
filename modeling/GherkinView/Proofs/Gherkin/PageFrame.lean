import GherkinView.Proofs.Gherkin.PageText

namespace GherkinView.Gherkin

open Text Markup

inductive PageLine.Kind
  | header (kind : Section)
  | step
  | plain
  deriving DecidableEq

def PageLine.kind : PageLine → Kind
  | header s _ _ => .header s
  | step _ _ _ => .step
  | plain _ => .plain

namespace Page

-- Where tags and the values of attributes begin and end.
def delimiters : List Char := ['<', '>', '\x22', '\x27']

-- Characters that mean something else than themselves.
def marks : List Char := '&' :: delimiters

def entities : List Text :=
  ["&amp;".toList, "&lt;".toList, "&gt;".toList, "&#34;".toList, "&#39;".toList]

-- Texts of entities and of characters that are no marks.
inductive Escaped : Text → Prop
  | nil : Escaped []
  | char {c t} (hc : c ∉ marks) (h : Escaped t) : Escaped (c :: t)
  | entity {e t} (he : e ∈ entities) (h : Escaped t) : Escaped (e ++ t)

theorem escapeChar_eq (c : Char) : escapeChar c ∈ entities ∨ c ∉ marks ∧ escapeChar c = [c] := by
  unfold escapeChar
  split
  case h_6 h1 h2 h3 h4 h5 => exact .inr ⟨by simpa [marks, delimiters] using ⟨h1, h2, h3, h4, h5⟩, rfl⟩
  all_goals exact .inl (by decide)

theorem escaped_escape (t : Text) : Escaped (escape t) := by
  induction t
  case nil => exact .nil
  case cons c t hi =>
    rw [escape, List.flatMap_cons, ← escape]
    obtain h | ⟨hc, h⟩ := escapeChar_eq c
    case inl => exact .entity h hi
    case inr => rw [h]; exact .char hc hi

theorem Escaped.not_mem_delimiters {t : Text} (h : Escaped t) : ∀ c ∈ t, c ∉ delimiters := by
  induction h
  case nil => exact nofun
  case char c t hc _ hi => exact List.forall_mem_cons.mpr ⟨mt (List.mem_cons_of_mem _) hc, hi⟩
  case entity e t he _ hi =>
    have hall : ∀ e ∈ entities, e.all (· ∉ delimiters) := by decide
    exact List.forall_mem_append.mpr ⟨by simpa using hall e he, hi⟩

-- A text of the page that is always there, or a place with what is put there.
inductive Piece
  | fixed (t : Text)
  | slot (t : Text)
  deriving DecidableEq

namespace Piece

def written : Piece → Text
  | fixed t => t
  | slot t => escape t

def fixed? : Piece → Option Text
  | fixed t => some t
  | slot _ => none

end Piece

open Piece

def linePieces : PageLine → List Piece
  | .header s indent rest =>
    [fixed ("<div class=\"".toList ++ s.cssClass ++ "\">".toList), slot indent, slot s.header, slot rest,
      fixed "</div>".toList]
  | .step k indent rest =>
    [fixed "<div>".toList, slot indent, fixed "<span class=\"gherkin-keyword\">".toList, slot k.name,
      fixed "</span>".toList, slot rest, fixed "</div>".toList]
  | .plain t => [fixed "<div>".toList, slot t, fixed "</div>".toList]

def headPieces (title : Text) : List (List Piece) :=
  ((head []).take 4).map ([fixed ·]) ++
    [fixed "    <title>".toList, slot title, fixed "</title>".toList] ::
      ((head []).drop 5).map ([fixed ·])

def bodyPieces (ls : List PageLine) : List (List Piece) :=
  [fixed "<body>".toList] ::
    (if ls.isEmpty then [[fixed emptyNotice]] else ls.map linePieces) ++ [[fixed "</body>".toList]]

def pieces (title : Text) (ls : List PageLine) : List Piece :=
  List.intercalate [fixed ['\n']] (headPieces title ++ bodyPieces ls ++ [[fixed "</html>".toList]])

section Written

theorem written_linePieces (pl : PageLine) : (linePieces pl).flatMap written = line pl := by
  have hf (t : Text) (ps : List Piece) : (fixed t :: ps).flatMap written = t ++ ps.flatMap written := rfl
  have hs (t : Text) (ps : List Piece) :
      (slot t :: ps).flatMap written = escape t ++ ps.flatMap written := rfl
  cases pl
  case header s indent rest =>
    rw [PageLine.line_header, escape_append, escape_append, linePieces, hf, hs, hs, hs, hf]
    simp only [List.append_assoc, List.flatMap_nil, List.append_nil]
  case step k indent rest =>
    rw [PageLine.line_step, linePieces, hf, hs, hf, hs, hf, hs, hf]
    simp only [List.append_assoc, List.flatMap_nil, List.append_nil]
  case plain t =>
    rw [PageLine.line_plain, linePieces, hf, hs, hf]
    simp only [List.append_assoc, List.flatMap_nil, List.append_nil]

theorem written_headPieces (title : Text) : (headPieces title).map (·.flatMap written) = head title := by
  have hw : ((·.flatMap written) ∘ ([fixed ·]) : Text → Text) = id :=
    funext fun t => List.append_nil t
  have ht : [fixed "    <title>".toList, slot title, fixed "</title>".toList].flatMap written =
      "    <title>".toList ++ escape title ++ "</title>".toList := by
    simp only [List.flatMap_cons, List.flatMap_nil, List.append_nil, List.append_assoc, written]
  rw [headPieces, List.map_append, List.map_cons, List.map_map, List.map_map, hw, List.map_id, List.map_id,
    ht, ← head_eq]

theorem written_bodyPieces (ls : List PageLine) :
    (bodyPieces ls).map (·.flatMap written) = body ls := by
  have hw : (·.flatMap written) ∘ linePieces = line := funext written_linePieces
  cases ls
  case nil => simp [bodyPieces, body, written]
  case cons => simp [bodyPieces, body, written, written_linePieces]

theorem intercalate_pieces_cons {ps : List Piece} {pss : List (List Piece)} (h : pss ≠ []) :
    List.intercalate [fixed ['\n']] (ps :: pss) =
      ps ++ fixed ['\n'] :: List.intercalate [fixed ['\n']] pss := by
  cases pss
  case nil  => contradiction
  case cons => simp [List.intercalate]

theorem written_intercalate (pss : List (List Piece)) :
    (List.intercalate [fixed ['\n']] pss).flatMap written = unlines (pss.map (·.flatMap written)) := by
  induction pss
  case nil => rfl
  case cons ps pss hi =>
    by_cases hn : pss = []
    case pos => simp [hn, unlines_singleton]
    case neg =>
      have hn' : pss.map (·.flatMap written) ≠ [] := mt List.map_eq_nil_iff.mp hn
      rw [intercalate_pieces_cons hn, List.flatMap_append, List.flatMap_cons, hi, List.map_cons,
        unlines_cons hn', List.append_assoc]
      rfl

theorem written_pieces (title gherkin : Text) :
    (pieces title (lines gherkin)).flatMap written = ofText title gherkin := by
  rw [pieces, written_intercalate, List.map_append, List.map_append, written_headPieces,
    written_bodyPieces, ofText]
  rfl

end Written

section Fixed

variable {ls ls' : List PageLine}

theorem fixed_linePieces {pl pl' : PageLine} (h : pl.kind = pl'.kind) :
    (linePieces pl).map fixed? = (linePieces pl').map fixed? := by
  cases pl <;> cases pl' <;> first | contradiction | rfl | skip
  case header.header s _ _ s' _ _ => rw [(PageLine.Kind.header.inj h : s = s')]; rfl

theorem fixed_bodyPieces (h : ls.map PageLine.kind = ls'.map PageLine.kind) :
    (bodyPieces ls).map (·.map fixed?) = (bodyPieces ls').map (·.map fixed?) := by
  have hl : (ls.map linePieces).map (·.map fixed?) = (ls'.map linePieces).map (·.map fixed?) := by
    induction ls generalizing ls'
    case nil => rw [List.map_eq_nil_iff.mp h.symm]
    case cons pl ls hi =>
      obtain ⟨pl', ls', rfl, hk, ht⟩ := List.map_eq_cons_iff.mp h.symm
      simp only [List.map_cons]
      rw [fixed_linePieces hk.symm, hi ht.symm]
  have he : ls.isEmpty = ls'.isEmpty := by
    rw [← List.isEmpty_map (f := PageLine.kind), h, List.isEmpty_map]
  simp only [bodyPieces, List.map_cons, List.map_append, he]
  split
  case isTrue  => rfl
  case isFalse => rw [hl]

theorem map_intercalate {α β} (f : α → β) (s : List α) (xss : List (List α)) :
    (List.intercalate s xss).map f = List.intercalate (s.map f) (xss.map (·.map f)) := by
  induction xss
  case nil => rfl
  case cons xs xss hi =>
    cases xss
    case nil => simp [List.intercalate]
    case cons => simp_all [List.intercalate]

-- What is fixed depends on the kinds of the lines, and on nothing else.
theorem fixed_pieces (title title' : Text) (h : ls.map PageLine.kind = ls'.map PageLine.kind) :
    (pieces title ls).map fixed? = (pieces title' ls').map fixed? := by
  have hh : (headPieces title).map (·.map fixed?) = (headPieces title').map (·.map fixed?) := by
    simp only [headPieces, List.map_append, List.map_cons, List.map_nil, fixed?]
  simp only [pieces, map_intercalate, List.map_append, hh, fixed_bodyPieces h]

end Fixed

section Tags

variable {ps : List Piece} {pss : List (List Piece)}

-- No tag of a fixed text is left open.
def Piece.IsWhole (p : Piece) : Prop :=
  ∀ t ∈ p.fixed?, IsClosed t

theorem forall_mem_intercalate {P : Piece → Prop} (hn : P (fixed ['\n']))
    (h : ∀ ps ∈ pss, ∀ p ∈ ps, P p) : ∀ p ∈ List.intercalate [fixed ['\n']] pss, P p := by
  induction pss
  case nil => exact nofun
  case cons ps pss hi =>
    have ⟨hp, ht⟩ := List.forall_mem_cons.mp h
    by_cases he : pss = []
    case pos => simpa [he, List.intercalate] using hp
    case neg =>
      rw [intercalate_pieces_cons he]
      exact List.forall_mem_append.mpr ⟨hp, List.forall_mem_cons.mpr ⟨hn, hi ht⟩⟩

theorem isWhole_fixed {t : Text} (h : IsClosed t) : (fixed t).IsWhole :=
  fun _ ht => Option.some.inj ht ▸ h

theorem isWhole_slot (t : Text) : (slot t).IsWhole :=
  nofun

theorem isWhole_linePieces (pl : PageLine) : ∀ p ∈ linePieces pl, p.IsWhole := by
  have hd : (fixed "<div>".toList).IsWhole := isWhole_fixed (by decide)
  have he : (fixed "</div>".toList).IsWhole := isWhole_fixed (by decide)
  cases pl <;> simp only [linePieces, List.forall_mem_cons]
  case plain t => exact ⟨hd, isWhole_slot t, he, nofun⟩
  case header s indent rest =>
    have ho : IsClosed ("<div class=\"".toList ++ s.cssClass ++ "\">".toList) := by cases s <;> decide
    exact ⟨isWhole_fixed ho, isWhole_slot _, isWhole_slot _, isWhole_slot _, he, nofun⟩
  case step k indent rest =>
    have hs : (fixed "<span class=\"gherkin-keyword\">".toList).IsWhole := isWhole_fixed (by decide)
    have hn : (fixed "</span>".toList).IsWhole := isWhole_fixed (by decide)
    exact ⟨hd, isWhole_slot _, hs, isWhole_slot _, hn, isWhole_slot _, he, nofun⟩

theorem isWhole_headPieces (title : Text) : ∀ ps ∈ headPieces title, ∀ p ∈ ps, p.IsWhole := by
  have hm : ∀ t ∈ head [], ∀ p ∈ [fixed t], p.IsWhole := fun t ht =>
    List.forall_mem_singleton.mpr (isWhole_fixed (head_lines ht).left)
  have ht : ∀ p ∈ [fixed "    <title>".toList, slot title, fixed "</title>".toList], p.IsWhole := by
    simp only [List.forall_mem_cons]
    exact ⟨isWhole_fixed (by decide), isWhole_slot title, isWhole_fixed (by decide), nofun⟩
  refine List.forall_mem_append.mpr ⟨?before, List.forall_mem_cons.mpr ⟨ht, ?behind⟩⟩
  case before => exact List.forall_mem_map.mpr fun t ht => hm t (List.mem_of_mem_take ht)
  case behind => exact List.forall_mem_map.mpr fun t ht => hm t (List.mem_of_mem_drop ht)

theorem isWhole_bodyPieces (ls : List PageLine) : ∀ ps ∈ bodyPieces ls, ∀ p ∈ ps, p.IsWhole := by
  have hf {t : Text} (h : IsClosed t) : ∀ p ∈ [fixed t], p.IsWhole :=
    List.forall_mem_singleton.mpr (isWhole_fixed h)
  refine List.forall_mem_cons.mpr ⟨hf (by decide), ?_⟩
  refine List.forall_mem_append.mpr ⟨?_, List.forall_mem_singleton.mpr (hf (by decide))⟩
  split
  case isTrue  => exact List.forall_mem_singleton.mpr (hf (by decide))
  case isFalse => exact List.forall_mem_map.mpr fun pl _ => isWhole_linePieces pl

theorem isWhole_pieces (title : Text) (ls : List PageLine) : ∀ p ∈ pieces title ls, p.IsWhole := by
  have he : ∀ p ∈ [fixed "</html>".toList], p.IsWhole :=
    List.forall_mem_singleton.mpr (isWhole_fixed (by decide))
  refine forall_mem_intercalate (isWhole_fixed (by decide)) (List.forall_mem_append.mpr ⟨?_, ?_⟩)
  · exact List.forall_mem_append.mpr ⟨isWhole_headPieces title, isWhole_bodyPieces ls⟩
  · exact List.forall_mem_singleton.mpr he

theorem tags_written (h : ∀ p ∈ ps, p.IsWhole) :
    tags (ps.flatMap written) = (ps.filterMap fixed?).flatMap tags := by
  induction ps
  case nil => rfl
  case cons p ps hi =>
    have ⟨hp, ht⟩ := List.forall_mem_cons.mp h
    cases p
    case fixed t =>
      rw [List.flatMap_cons, written, tags_append (hp t rfl), hi ht]
      rfl
    case slot t =>
      rw [List.flatMap_cons, written, tags_append (PageLine.isClosed_escape t), hi ht,
        tags_of_not_mem (not_mem_escape t)]
      rfl

theorem delimiters_written (ps : List Piece) :
    (ps.flatMap written).filter (· ∈ delimiters) =
      (ps.filterMap fixed?).flatten.filter (· ∈ delimiters) := by
  induction ps
  case nil => rfl
  case cons p ps hi =>
    rw [List.flatMap_cons, List.filter_append, hi]
    cases p
    case fixed t =>
      have hf : (fixed t :: ps).filterMap fixed? = t :: ps.filterMap fixed? := rfl
      rw [hf, List.flatten_cons, List.filter_append, written]
    case slot t =>
      have hs : (slot t :: ps).filterMap fixed? = ps.filterMap fixed? := rfl
      have hn : (escape t).filter (· ∈ delimiters) = [] := List.filter_eq_nil_iff.mpr fun c hc hm =>
        (escaped_escape t).not_mem_delimiters c hc (of_decide_eq_true hm)
      rw [hs, written, hn, List.nil_append]

end Tags

end Page

def Document.pageKinds (d : Document) : List PageLine.Kind :=
  (Page.lines d.render).map PageLine.kind

def Document.pagePieces (d : Document) (title : Option Text) : List Page.Piece :=
  Page.pieces (title.getD d.defaultTitle) (Page.lines d.render)

-- The tags of a page, their attributes and all brackets and quotes are those of its fixed texts, and the
-- fixed texts are told by the kinds of the lines. What is put into the slots is escaped.
theorem Document.page_markup_fixed (d : Document) (title : Option Text) :
    d.page title = (d.pagePieces title).flatMap Page.Piece.written ∧
      (∀ t, .slot t ∈ d.pagePieces title → Page.Escaped (Page.Piece.slot t).written) ∧
      (d.page title).filter (· ∈ Page.delimiters) =
        ((d.pagePieces title).filterMap Page.Piece.fixed?).flatten.filter (· ∈ Page.delimiters) ∧
      tags (d.page title) = ((d.pagePieces title).filterMap Page.Piece.fixed?).flatMap tags ∧
      ∀ (d' : Document) (title' : Option Text), d.pageKinds = d'.pageKinds →
        (d.pagePieces title).map Page.Piece.fixed? = (d'.pagePieces title').map Page.Piece.fixed? ∧
          tags (d.page title) = tags (d'.page title') := by
  have hw (d : Document) (title : Option Text) :
      d.page title = (d.pagePieces title).flatMap Page.Piece.written :=
    (Page.written_pieces _ _).symm
  have ht (d : Document) (title : Option Text) :
      tags (d.page title) = ((d.pagePieces title).filterMap Page.Piece.fixed?).flatMap tags :=
    hw d title ▸ Page.tags_written (Page.isWhole_pieces _ _)
  refine ⟨hw d title, fun t _ => Page.escaped_escape t, ?delimiters, ht d title,
    fun d' title' hk => ?pair⟩
  case delimiters => exact hw d title ▸ Page.delimiters_written _
  case pair =>
    have hf : (d.pagePieces title).map Page.Piece.fixed? = (d'.pagePieces title').map Page.Piece.fixed? :=
      Page.fixed_pieces _ _ hk
    have hm (ps : List Page.Piece) :
        ps.filterMap Page.Piece.fixed? = (ps.map Page.Piece.fixed?).filterMap id := by
      rw [List.filterMap_map, Function.id_comp]
    exact ⟨hf, by rw [ht, ht, hm, hf, ← hm]⟩

-- Brackets in a name or in the title add no tag.
theorem Document.page_markup_fixed_brackets :
    tags (Document.page ⟨[{ name := "</div><a>".toList }]⟩ none) =
      tags (Document.page ⟨[{ name := "Cart".toList }]⟩ (some "</title>".toList)) :=
  ((Document.page_markup_fixed _ _).right.right.right.right _ _ (by decide +kernel)).right

end GherkinView.Gherkin
