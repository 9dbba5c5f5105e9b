import GherkinView.Gherkin.Page
import GherkinView.Proofs.Text.Markup

namespace GherkinView.Gherkin

open Text Markup

def keywordTag : Text := "span class=\"gherkin-keyword\"".toList

def isKeywordTag (k : Token) : Bool :=
  k == .tag keywordTag || k == .tag "/span".toList

-- A division as it reads, without the tags that set off a keyword.
def readDivision? (ks : List Token) : Option Text :=
  shown? (ks.filter (!isKeywordTag ·))

namespace Page

theorem escape_append (t u : Text) : escape (t ++ u) = escape t ++ escape u :=
  List.flatMap_append

theorem not_mem_escapeChar (c : Char) : '<' ∉ escapeChar c := by
  unfold escapeChar
  split
  case h_6 _ hc _ _ _ => exact fun h => hc (List.mem_singleton.mp h).symm
  all_goals decide

theorem not_mem_escape (t : Text) : '<' ∉ escape t := by
  intro h
  have ⟨c, _, hc⟩ := List.mem_flatMap.mp h
  exact not_mem_escapeChar c hc

theorem unescape_cons {c : Char} (h : c ≠ '&') (t : Text) : unescape (c :: t) = c :: unescape t := by
  conv_lhs => unfold unescape
  split <;> simp_all

theorem unescape_escapeChar (c : Char) (t : Text) : unescape (escapeChar c ++ t) = c :: unescape t := by
  unfold escapeChar
  split
  case h_6 hc _ _ _ _ => exact unescape_cons hc t
  all_goals rfl

theorem unescape_escape (t : Text) : unescape (escape t) = t := by
  induction t
  case nil => rfl
  case cons c t hi => rw [escape, List.flatMap_cons, unescape_escapeChar, ← escape, hi]

end Page

namespace PageLine

def text : PageLine → Text
  | header s indent rest => indent ++ s.header ++ rest
  | step k indent rest => indent ++ k.name ++ rest
  | plain line => line

-- The name and the attributes of the division.
def opening : PageLine → Text
  | header s _ _ => "div class=\"".toList ++ s.cssClass ++ "\"".toList
  | step _ _ _ | plain _ => "div".toList

def content : PageLine → List Token
  | header s indent rest => (Page.escape (indent ++ s.header ++ rest)).map Token.char
  | step k indent rest =>
    (Page.escape indent).map Token.char ++
      .tag keywordTag :: (Page.escape k.name).map Token.char ++
        .tag "/span".toList :: (Page.escape rest).map Token.char
  | plain line => (Page.escape line).map Token.char

variable {l : Text} {pl : PageLine}

theorem eq_of_after? {lead t r : Text} (h : after? lead t = some r) : t = lead ++ r :=
  (List.isPrefixOf?_eq_some_iff_append_eq.mp h).symm

theorem text_of_ofHeader? (h : ofHeader? l = some pl) : pl.text = l := by
  have ⟨s, _, h⟩ := List.exists_of_findSome?_eq_some h
  have ⟨r, hr, he⟩ := Option.map_eq_some_iff.mp h
  rw [← he, text, List.append_assoc, ← eq_of_after? hr, trimStart, List.takeWhile_append_dropWhile]

theorem text_of_ofStep? (h : ofStep? l = some pl) : pl.text = l := by
  have ⟨k, _, h⟩ := List.exists_of_findSome?_eq_some h
  have ⟨r, hr, he⟩ := Option.map_eq_some_iff.mp h
  have hr := (Option.filter_eq_some_iff.mp hr).left
  rw [← he, text, List.append_assoc, ← eq_of_after? hr, trimStart, List.takeWhile_append_dropWhile]

-- No character of a line is lost or told twice.
theorem text_ofLine (l : Text) : (ofLine l).text = l := by
  rw [ofLine]
  cases hh : ofHeader? l
  case some pl => exact text_of_ofHeader? hh
  case none =>
    cases hs : ofStep? l
    case some pl => exact text_of_ofStep? hs
    case none    => rfl

theorem opensDivision_opening (pl : PageLine) : opensDivision pl.opening = true := by
  cases pl
  case header s _ _ => cases s <;> rfl
  all_goals rfl

theorem opening_ne {name : Text} (h : opensDivision name = false) (pl : PageLine) : name ≠ pl.opening := by
  rintro rfl
  exact absurd pl.opensDivision_opening (h ▸ Bool.false_ne_true)

theorem not_closesDivision_content (pl : PageLine) : ∀ k ∈ pl.content, closesDivision k = false := by
  have hc (t : Text) : ∀ k ∈ t.map Token.char, closesDivision k = false := by
    intro k hk
    obtain ⟨c, _, rfl⟩ := List.mem_map.mp hk
    rfl
  cases pl
  case header => exact hc _
  case plain => exact hc _
  case step k indent rest =>
    simp only [content, List.forall_mem_append, List.forall_mem_cons]
    exact ⟨⟨hc _, rfl, hc _⟩, rfl, hc _⟩

theorem readDivision?_content (pl : PageLine) : readDivision? pl.content = some pl.text := by
  have hk (t : Text) : (t.map Token.char).filter (!isKeywordTag ·) = t.map Token.char := by
    refine List.filter_eq_self.mpr fun k hk => ?_
    obtain ⟨c, _, rfl⟩ := List.mem_map.mp hk
    rfl
  have hs (t : Text) : shown? ((Page.escape t).map Token.char) = some t := by
    have hm (u : Text) : (u.map Token.char).mapM Token.char? = some u := by
      induction u
      case nil => rfl
      case cons c u hi => simp [hi, Token.char?]
    rw [shown?, hm, Option.map_some, Page.unescape_escape]
  cases pl
  case header s indent rest => rw [readDivision?, content, hk, hs]; rfl
  case plain => rw [readDivision?, content, hk, hs]; rfl
  case step k indent rest =>
    have h1 : (!isKeywordTag (.tag keywordTag)) = false := by decide
    have h2 : (!isKeywordTag (.tag "/span".toList)) = false := by decide
    rw [readDivision?, content, text, ← hs, Page.escape_append, Page.escape_append]
    simp only [List.filter_append, List.filter_cons, List.map_append, hk, h1, h2, Bool.false_eq_true,
      if_false]

-- Escaped text has characters only.
theorem tokens_escape (t : Text) : tokens (Page.escape t) = (Page.escape t).map Token.char :=
  tokens_of_not_mem (Page.not_mem_escape t)

theorem isClosed_escape (t : Text) : IsClosed (Page.escape t) :=
  isClosed_of_not_mem (Page.not_mem_escape t)

theorem line_header (s : Section) (indent rest : Text) :
    Page.line (header s indent rest) = "<div class=\"".toList ++ s.cssClass ++ "\">".toList ++
      Page.escape (indent ++ s.header ++ rest) ++ "</div>".toList := by
  dsimp only [Page.line]
  simp only [Page.escape_append, List.append_assoc]

theorem line_step (k : Keyword) (indent rest : Text) :
    Page.line (step k indent rest) = "<div>".toList ++ Page.escape indent ++
      "<span class=\"gherkin-keyword\">".toList ++ Page.escape k.name ++ "</span>".toList ++
      Page.escape rest ++ "</div>".toList :=
  rfl

theorem line_plain (t : Text) :
    Page.line (plain t) = "<div>".toList ++ Page.escape t ++ "</div>".toList :=
  rfl

theorem tokens_line (pl : PageLine) :
    IsClosed (Page.line pl) ∧
      tokens (Page.line pl) = .tag pl.opening :: (pl.content ++ [.tag "/div".toList]) := by
  have hd : IsClosed "<div>".toList := by decide
  have he : IsClosed "</div>".toList := by decide
  cases pl
  case plain t =>
    have hb := hd.append (isClosed_escape t)
    rw [line_plain, tokens_append hb, tokens_append hd, tokens_escape]
    exact ⟨hb.append he, rfl⟩
  case header s indent rest =>
    have ho : IsClosed ("<div class=\"".toList ++ s.cssClass ++ "\">".toList) := by cases s <;> decide
    have ht : tokens ("<div class=\"".toList ++ s.cssClass ++ "\">".toList) =
        [.tag (opening (header s indent rest))] := by cases s <;> rfl
    have hb := ho.append (isClosed_escape (indent ++ s.header ++ rest))
    rw [line_header, tokens_append hb, tokens_append ho, ht, tokens_escape]
    exact ⟨hb.append he, rfl⟩
  case step k indent rest =>
    have hs : IsClosed "<span class=\"gherkin-keyword\">".toList := by decide
    have hn : IsClosed "</span>".toList := by decide
    have h1 := hd.append (isClosed_escape indent)
    have h2 := h1.append hs
    have h3 := h2.append (isClosed_escape k.name)
    have h4 := h3.append hn
    have h5 := h4.append (isClosed_escape rest)
    rw [line_step, tokens_append h5, tokens_append h4, tokens_append h3, tokens_append h2,
      tokens_append h1, tokens_append hd, tokens_escape, tokens_escape, tokens_escape]
    refine ⟨h5.append he, ?_⟩
    simp only [content, List.append_assoc]
    rfl

end PageLine

section Body

variable {ls : List PageLine}

theorem isClosed_of_mem_lines {l : Text} (h : l ∈ ls.map Page.line) : IsClosed l := by
  obtain ⟨pl, _, rfl⟩ := List.mem_map.mp h
  exact pl.tokens_line.left

theorem divisions_lines (ls : List PageLine) (c : Char) :
    divisions (tokens (unlines (ls.map Page.line)) ++ [.char c]) = ls.map PageLine.content := by
  induction ls
  case nil => rfl
  case cons pl ls hi =>
    have ⟨hc, ht⟩ := pl.tokens_line
    have hd (after : List Token) :
        divisions (tokens (Page.line pl) ++ after) = pl.content :: divisions after := by
      rw [ht, List.cons_append, List.append_assoc]
      exact divisions_cons pl.opensDivision_opening pl.not_closesDivision_content after
    by_cases hn : ls.map Page.line = []
    case pos =>
      rw [List.map_cons, hn, unlines_singleton, hd, List.map_eq_nil_iff.mp hn]
      rfl
    case neg =>
      have hl : IsClosed ['\n'] := by decide
      rw [List.map_cons, unlines_cons hn, tokens_append (hc.append hl), tokens_append hc,
        List.append_assoc, List.append_assoc, hd]
      exact congrArg _ hi

-- The tags of a line are those of its division and of a keyword.
theorem mem_tags_line {pl : PageLine} {name : Text} (h : .tag name ∈ tokens (Page.line pl)) :
    name = pl.opening ∨ name = keywordTag ∨ name = "/span".toList ∨ name = "/div".toList := by
  have hc (t : Text) : .tag name ∉ t.map Token.char := fun h =>
    have ⟨_, _, he⟩ := List.mem_map.mp h
    nomatch he
  rw [pl.tokens_line.right] at h
  cases pl <;> simp_all [PageLine.content] <;> tauto

end Body

namespace Page

variable {title l : Text} {ls : List PageLine}

-- What stands in the body.
def bodyLines (ls : List PageLine) : List Text :=
  if ls.isEmpty then [emptyNotice] else ls.map line

theorem bodyLines_ne_nil (ls : List PageLine) : bodyLines ls ≠ [] := by
  cases ls <;> exact List.cons_ne_nil _ _

theorem isClosed_of_mem_bodyLines (h : l ∈ bodyLines ls) : IsClosed l := by
  rw [bodyLines] at h
  split at h
  case isTrue  => rw [List.mem_singleton.mp h]; decide
  case isFalse => exact isClosed_of_mem_lines h

def bodyTokens (ls : List PageLine) : List Token :=
  .char '\n' :: (tokens (unlines (bodyLines ls)) ++ [.char '\n'])

theorem mem_tags_body {name : Text} (h : .tag name ∈ bodyTokens ls) :
    ls = [] ∧ .tag name ∈ tokens emptyNotice ∨
      (∃ pl : PageLine, name = pl.opening) ∨ name = keywordTag ∨ name = "/span".toList ∨
        name = "/div".toList := by
  have h : .tag name ∈ tokens (unlines (bodyLines ls)) := by
    simpa [bodyTokens] using h
  obtain h | ⟨l, hl, h⟩ := mem_tokens_unlines (fun _ => isClosed_of_mem_bodyLines) h
  case inl => nomatch h
  case inr =>
    rw [bodyLines] at hl
    split at hl
    case isTrue hn =>
      rw [List.mem_singleton.mp hl] at h
      exact .inl ⟨List.isEmpty_iff.mp hn, h⟩
    case isFalse =>
      obtain ⟨pl, _, rfl⟩ := List.mem_map.mp hl
      exact .inr ((mem_tags_line h).imp_left fun h => ⟨pl, h⟩)

theorem head_eq (title : Text) : head title = (head []).take 4 ++
    ("    <title>".toList ++ escape title ++ "</title>".toList) :: (head []).drop 5 :=
  rfl

-- Whatever the title is, the head is closed and the body begins behind it.
theorem head_lines (h : l ∈ head title) : IsClosed l ∧ .tag "body".toList ∉ tokens l := by
  have hf : ∀ l ∈ head [], IsClosed l ∧ .tag "body".toList ∉ tokens l := by decide +kernel
  have hm : l = "    <title>".toList ++ escape title ++ "</title>".toList ∨ l ∈ head [] := by
    rw [head_eq] at h
    obtain h | h := List.mem_append.mp h
    · exact .inr (List.mem_of_mem_take h)
    · exact (List.mem_cons.mp h).imp_right List.mem_of_mem_drop
  obtain rfl | hm := hm
  case inr => exact hf l hm
  case inl =>
    have ho : IsClosed "    <title>".toList := by decide
    have hb := ho.append (PageLine.isClosed_escape title)
    refine ⟨hb.append (by decide), ?_⟩
    rw [tokens_append hb, tokens_append ho, PageLine.tokens_escape]
    simp only [List.mem_append, List.mem_map, reduceCtorEq, and_false, exists_false, or_false]
    decide

theorem ofText_eq (title gherkin : Text) :
    ofText title gherkin = unlines (head title) ++ '\n' :: "<body>".toList ++ ['\n'] ++
      unlines (bodyLines (lines gherkin)) ++ '\n' :: "</body>".toList ++ '\n' :: "</html>".toList := by
  have hb : body (lines gherkin) = "<body>".toList :: bodyLines (lines gherkin) ++ ["</body>".toList] := rfl
  have hn := bodyLines_ne_nil (lines gherkin)
  rw [ofText, hb, unlines_concat (by simp), unlines_append (by simp [head]) (by simp), unlines_concat (by simp),
    unlines_cons hn]
  simp only [List.append_assoc, List.cons_append]

theorem inside_ofText (title gherkin : Text) :
    inside "body".toList (tokens (ofText title gherkin)) = bodyTokens (lines gherkin) := by
  have hh : IsClosed (unlines (head title)) := isClosed_unlines fun l hl => (head_lines hl).left
  have ho : IsClosed ('\n' :: "<body>".toList) := by decide
  have hn : IsClosed ['\n'] := by decide
  have hb : IsClosed (unlines (bodyLines (lines gherkin))) :=
    isClosed_unlines fun _ => isClosed_of_mem_bodyLines
  have h1 := hh.append ho
  have h2 := h1.append hn
  have h3 := h2.append hb
  have h4 : IsClosed ('\n' :: "</body>".toList) := by decide
  have he : tokens (ofText title gherkin) = (tokens (unlines (head title)) ++ [.char '\n']) ++
      .tag "body".toList :: (bodyTokens (lines gherkin) ++
        .tag ('/' :: "body".toList) :: tokens ('\n' :: "</html>".toList)) := by
    have hs : tokens ('\n' :: "<body>".toList) = [.char '\n', .tag "body".toList] := rfl
    have he : tokens ('\n' :: "</body>".toList) = [.char '\n', .tag ('/' :: "body".toList)] := rfl
    have hc : tokens ['\n'] = [.char '\n'] := rfl
    rw [ofText_eq, tokens_append (h3.append h4), tokens_append h3, tokens_append h2, tokens_append h1,
      tokens_append hh, hs, he, hc, bodyTokens]
    simp only [List.append_assoc, List.cons_append, List.nil_append]
  rw [he]
  refine inside_eq ?before ?inner _
  case before =>
    intro h
    obtain h | h := List.mem_append.mp h
    case inr => exact absurd (List.mem_singleton.mp h) nofun
    case inl =>
      obtain h | ⟨l, hl, h⟩ := mem_tokens_unlines (fun l hl => (head_lines hl).left) h
      case inl => nomatch h
      case inr => exact (head_lines hl).right h
  case inner =>
    intro h
    obtain ⟨_, h⟩ | ⟨pl, h⟩ | h | h | h := mem_tags_body h
    · exact absurd h (by decide)
    · exact pl.opening_ne (by decide) h
    all_goals exact absurd h (by decide)

theorem lines_eq_nil_iff {gherkin : Text} : lines gherkin = [] ↔ gherkin = [] := by
  cases gherkin
  case nil      => exact iff_of_true rfl rfl
  case cons c t => exact iff_of_false (by simp [lines, lines_ne_nil]) (List.cons_ne_nil c t)

theorem map_text_lines {gherkin : Text} (h : gherkin ≠ []) :
    (lines gherkin).map PageLine.text = Text.lines gherkin := by
  rw [lines, if_neg (mt List.isEmpty_iff.mp h), List.map_map]
  exact (List.map_congr_left fun l _ => PageLine.text_ofLine l).trans (List.map_id _)

theorem divisions_bodyTokens (ls : List PageLine) :
    divisions (bodyTokens ls) = ls.map PageLine.content := by
  rw [bodyTokens, divisions_char, bodyLines]
  split
  case isTrue h  => rw [List.isEmpty_iff.mp h]; rfl
  case isFalse h => exact divisions_lines ls '\n'

-- The notice is there where there are no lines.
theorem notice_infix_iff (ls : List PageLine) : tokens emptyNotice <:+: bodyTokens ls ↔ ls = [] := by
  constructor
  case mp =>
    intro h
    have ht : .tag "p class=\"empty\"".toList ∈ tokens emptyNotice := by decide
    obtain ⟨h, _⟩ | ⟨pl, h⟩ | h | h | h := mem_tags_body (h.subset ht)
    · exact h
    · exact absurd h (pl.opening_ne (by decide))
    all_goals exact absurd h (by decide)
  case mpr =>
    rintro rfl
    exact ⟨[.char '\n'], [.char '\n'], rfl⟩

end Page

-- The body of the page has a division for each line of the text, which reads as that line; without
-- any text it has no division, but a notice.
theorem Document.page_carries_text (d : Document) (title : Option Text) :
    let body := inside "body".toList (tokens (d.page title))
    (d.render ≠ [] → (divisions body).map readDivision? = (Text.lines d.render).map some) ∧
      (divisions body = [] ↔ d.render = []) ∧
      (tokens Page.emptyNotice <:+: body ↔ d.render = []) := by
  intro body
  have hb : body = Page.bodyTokens (Page.lines d.render) := Page.inside_ofText _ _
  refine ⟨?lines, ?empty, ?notice⟩
  case lines =>
    intro hr
    rw [hb, Page.divisions_bodyTokens, ← Page.map_text_lines hr, List.map_map, List.map_map]
    exact List.map_congr_left fun pl _ => pl.readDivision?_content
  case empty  => rw [hb, Page.divisions_bodyTokens, List.map_eq_nil_iff, Page.lines_eq_nil_iff]
  case notice => rw [hb, Page.notice_infix_iff, Page.lines_eq_nil_iff]

end GherkinView.Gherkin
