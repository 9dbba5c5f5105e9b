import Mathlib.Data.List.Infix
import GherkinView.Proofs.Text.Lines

namespace GherkinView.Markup

open Text

inductive Token
  | tag (name : Text)
  | char (c : Char)
  deriving DecidableEq

-- `tag?` is what has been read of a tag, last character first. One that is not closed is none.
def tokens.scan (tag? : Option Text) : Text → List Token
  | [] => []
  | c :: r =>
    match tag? with
    | none => if c = '<' then scan (some []) r else .char c :: scan none r
    | some done => if c = '>' then .tag done.reverse :: scan none r else scan (some (c :: done)) r

def tokens (t : Text) : List Token :=
  tokens.scan none t

def Token.tag? : Token → Option Text
  | tag name => some name
  | char _ => none

-- The tags of a text, each with its attributes.
def tags (t : Text) : List Text :=
  (tokens t).filterMap Token.tag?

-- What has been read of a tag at the end of the text.
def tokens.scanned (tag? : Option Text) : Text → Option Text
  | [] => tag?
  | c :: r =>
    match tag? with
    | none => scanned (if c = '<' then some [] else none) r
    | some done => scanned (if c = '>' then none else some (c :: done)) r

-- Every tag ends.
def IsClosed (t : Text) : Prop :=
  tokens.scanned none t = none

instance (t : Text) : Decidable (IsClosed t) :=
  inferInstanceAs (Decidable (_ = _))

section Tokens

variable {t u : Text} {ls : List Text}

theorem tokens.scan_append (tag? : Option Text) (t u : Text) :
    scan tag? (t ++ u) = scan tag? t ++ scan (scanned tag? t) u := by
  induction t generalizing tag?
  case nil => rfl
  case cons c t hi =>
    cases tag? <;> simp only [List.cons_append, scan, scanned, hi] <;> split <;> rfl

theorem tokens.scanned_append (tag? : Option Text) (t u : Text) :
    scanned tag? (t ++ u) = scanned (scanned tag? t) u := by
  induction t generalizing tag?
  case nil => rfl
  case cons c t hi => cases tag? <;> simp only [List.cons_append, scanned, hi]

theorem IsClosed.append (ht : IsClosed t) (hu : IsClosed u) : IsClosed (t ++ u) := by
  rw [IsClosed, tokens.scanned_append, ht, hu]

theorem tokens_append (h : IsClosed t) (u : Text) : tokens (t ++ u) = tokens t ++ tokens u := by
  rw [tokens, tokens.scan_append, h]
  rfl

theorem isClosed_of_not_mem (h : '<' ∉ t) : IsClosed t := by
  induction t
  case nil => rfl
  case cons c t hi =>
    have ⟨hc, ht⟩ := not_or.mp (mt List.mem_cons.mpr h)
    rw [IsClosed, tokens.scanned, if_neg (Ne.symm hc)]
    exact hi ht

theorem tokens_of_not_mem (h : '<' ∉ t) : tokens t = t.map Token.char := by
  induction t
  case nil => rfl
  case cons c t hi =>
    have ⟨hc, ht⟩ := not_or.mp (mt List.mem_cons.mpr h)
    rw [tokens, tokens.scan, if_neg (Ne.symm hc), List.map_cons, ← hi ht, tokens]

theorem tags_append (h : IsClosed t) (u : Text) : tags (t ++ u) = tags t ++ tags u := by
  rw [tags, tokens_append h, List.filterMap_append, ← tags, ← tags]

theorem tags_of_not_mem (h : '<' ∉ t) : tags t = [] := by
  rw [tags, tokens_of_not_mem h, List.filterMap_map]
  exact List.filterMap_none t

theorem isClosed_unlines (h : ∀ l ∈ ls, IsClosed l) : IsClosed (unlines ls) := by
  induction ls
  case nil => rfl
  case cons l ls hi =>
    have ⟨hl, hls⟩ := List.forall_mem_cons.mp h
    by_cases hn : ls = []
    case pos => rwa [hn, unlines_singleton]
    case neg => rw [unlines_cons hn]; exact (hl.append (by decide)).append (hi hls)

theorem mem_tokens_unlines {k : Token} (h : ∀ l ∈ ls, IsClosed l) (hk : k ∈ tokens (unlines ls)) :
    k = .char '\n' ∨ ∃ l ∈ ls, k ∈ tokens l := by
  induction ls
  case nil => contradiction
  case cons l ls hi =>
    have ⟨hl, hls⟩ := List.forall_mem_cons.mp h
    by_cases hn : ls = []
    case pos =>
      rw [hn, unlines_singleton] at hk
      exact .inr ⟨l, List.mem_cons_self, hk⟩
    case neg =>
      have hc : IsClosed (l ++ ['\n']) := hl.append (by decide)
      rw [unlines_cons hn, tokens_append hc, tokens_append hl] at hk
      simp only [List.mem_append] at hk
      obtain (hk | hk) | hk := hk
      · exact .inr ⟨l, List.mem_cons_self, hk⟩
      · exact .inl (List.mem_singleton.mp hk)
      · exact (hi hls hk).imp_right fun ⟨l', hl', hk⟩ => ⟨l', List.mem_cons_of_mem _ hl', hk⟩

end Tokens

-- What stands between the first tag `name` and the tag that ends it.
def inside (name : Text) (ks : List Token) : List Token :=
  ((ks.dropWhile (· != .tag name)).drop 1).takeWhile (· != .tag ('/' :: name))

def opensDivision (name : Text) : Bool :=
  name == "div".toList || startsWith "div ".toList name

def closesDivision (k : Token) : Bool :=
  k == .tag "/div".toList

-- `done?` is what has been read of a division, last token first.
def divisions.scan (done? : Option (List Token)) : List Token → List (List Token)
  | [] => (done?.map List.reverse).toList
  | k :: ks =>
    match done?, k with
    | none, .tag name => scan (if opensDivision name then some [] else none) ks
    | none, .char _ => scan none ks
    | some done, k => if closesDivision k then done.reverse :: scan none ks else scan (some (k :: done)) ks

def divisions (ks : List Token) : List (List Token) :=
  divisions.scan none ks

def unescape : Text → Text
  | '&' :: 'a' :: 'm' :: 'p' :: ';' :: r => '&' :: unescape r
  | '&' :: 'l' :: 't' :: ';' :: r => '<' :: unescape r
  | '&' :: 'g' :: 't' :: ';' :: r => '>' :: unescape r
  | '&' :: '#' :: '3' :: '4' :: ';' :: r => '\x22' :: unescape r
  | '&' :: '#' :: '3' :: '9' :: ';' :: r => '\x27' :: unescape r
  | c :: r => c :: unescape r
  | [] => []

def Token.char? : Token → Option Char
  | tag _ => none
  | char c => some c

-- The characters that are shown, if there are no tags among them.
def shown? (ks : List Token) : Option Text :=
  (ks.mapM Token.char?).map unescape

section Divisions

variable {ks : List Token} {name : Text}

theorem inside_eq {before : List Token} (hb : .tag name ∉ before) (hk : .tag ('/' :: name) ∉ ks)
    (after : List Token) :
    inside name (before ++ .tag name :: (ks ++ .tag ('/' :: name) :: after)) = ks := by
  have hb : ∀ k ∈ before, (k != .tag name) = true := fun k hm => bne_iff_ne.mpr fun h => hb (h ▸ hm)
  have hk : ∀ k ∈ ks, (k != .tag ('/' :: name)) = true :=
    fun k hm => bne_iff_ne.mpr fun h => hk (h ▸ hm)
  rw [inside, List.dropWhile_append_of_pos hb, List.dropWhile_cons_of_neg (by simp), List.drop_one,
    List.tail_cons, List.takeWhile_append_of_pos hk, List.takeWhile_cons_of_neg (by simp), List.append_nil]

theorem divisions.scan_append (hk : ∀ k ∈ ks, closesDivision k = false) (done after : List Token) :
    scan (some done) (ks ++ .tag "/div".toList :: after) = (done.reverse ++ ks) :: scan none after := by
  induction ks generalizing done
  case nil => simp [scan, closesDivision]
  case cons k ks hi =>
    have ⟨hc, hks⟩ := List.forall_mem_cons.mp hk
    rw [List.cons_append, scan, hc, if_neg Bool.false_ne_true, hi hks]
    simp

theorem divisions_cons (ho : opensDivision name = true) (hk : ∀ k ∈ ks, closesDivision k = false)
    (after : List Token) :
    divisions (.tag name :: (ks ++ .tag "/div".toList :: after)) = ks :: divisions after := by
  rw [divisions, divisions.scan, if_pos ho, divisions.scan_append hk]
  rfl

theorem divisions_char (c : Char) (ks : List Token) : divisions (.char c :: ks) = divisions ks :=
  rfl

end Divisions
end GherkinView.Markup
