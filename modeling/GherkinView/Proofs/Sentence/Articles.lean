import GherkinView.Proofs.Sentence.Selectors

namespace GherkinView.Sentence

open Text

-- The word twice, with nothing but blanks in between.
structure DoublesArticle (t before gap behind : Text) : Prop where
  eq : t = before ++ ((article ++ gap ++ article) ++ behind)
  gap_ne : gap ≠ []
  blank : ∀ c ∈ gap, isBlank c = true
  starts : ∀ c ∈ before.getLast?, isWord c = false
  ends : ∀ c ∈ behind.head?, isWord c = false

def HasDoubledArticle (t : Text) : Prop :=
  ∃ before gap behind, DoublesArticle t before gap behind

-- The word comes last, but for blanks.
structure EndsInArticle (t before gap : Text) : Prop where
  eq : t = before ++ (article ++ gap)
  gap_ne : gap ≠ []
  blank : ∀ c ∈ gap, isBlank c = true
  starts : ∀ c ∈ before.getLast?, isWord c = false

def HasArticleAtEnd (t : Text) : Prop :=
  ∃ before gap, EndsInArticle t before gap

section Article

variable {t x y w before gap behind : Text} {c : Char}

theorem isWord_of_mem_article : ∀ c ∈ article, isWord c = true :=
  List.all_eq_true.mp (by decide)

theorem not_isBlank_of_isWord (h : isWord c = true) : isBlank c = false := by
  by_contra hb
  rw [not_isWord_of_isBlank (by simpa using hb)] at h
  contradiction

theorem word_article_append (h : ∀ c ∈ y.head?, isWord c = false) : word (article ++ y) = article :=
  word_append isWord_of_mem_article h

theorem HasDoubledArticle.two_le_count (h : HasDoubledArticle t) : 2 ≤ t.count 'h' := by
  obtain ⟨before, gap, behind, h⟩ := h
  have ha : article.count 'h' = 1 := by decide
  rw [h.eq]
  simp only [List.count_append, ha]
  omega

theorem HasDoubledArticle.exists_isBlank (h : HasDoubledArticle t) : ∃ c ∈ t.dropLast, isBlank c = true := by
  obtain ⟨before, gap, behind, h⟩ := h
  obtain ⟨c, gap, rfl⟩ := List.exists_cons_of_ne_nil h.gap_ne
  have he : t = (before ++ article ++ c :: gap) ++ (article ++ behind) := by simp [h.eq]
  refine ⟨c, ?_, h.blank c List.mem_cons_self⟩
  rw [he, List.dropLast_append_of_ne_nil (by simp [article])]
  simp

theorem not_hasDoubledArticle_of_dropLast (h : ∀ c ∈ t.dropLast, isBlank c = false) : ¬HasDoubledArticle t := by
  intro hd
  obtain ⟨c, hc, hb⟩ := hd.exists_isBlank
  rw [h c hc] at hb
  contradiction

theorem HasDoubledArticle.append_left (h : HasDoubledArticle y)
    (hs : (∀ c ∈ x.getLast?, isWord c = false) ∨ ∀ c ∈ y.head?, isWord c = false) : HasDoubledArticle (x ++ y) := by
  obtain ⟨before, gap, behind, h⟩ := h
  refine ⟨x ++ before, gap, behind, by simp [h.eq], h.gap_ne, h.blank, fun c hc => ?_, h.ends⟩
  cases before using List.reverseRecOn
  case append_singleton before d _ => exact h.starts c (by simpa using hc)
  case nil =>
    obtain hs | hs := hs
    · exact hs c (by simpa using hc)
    · have := hs 't' (by simp [h.eq, article])
      exact absurd this (by decide)

theorem HasDoubledArticle.append_right (h : HasDoubledArticle x)
    (hs : (∀ c ∈ x.getLast?, isWord c = false) ∨ ∀ c ∈ y.head?, isWord c = false) : HasDoubledArticle (x ++ y) := by
  obtain ⟨before, gap, behind, h⟩ := h
  refine ⟨before, gap, behind ++ y, by simp [h.eq], h.gap_ne, h.blank, h.starts, fun c hc => ?_⟩
  cases behind
  case cons d behind => exact h.ends c hc
  case nil =>
    obtain hs | hs := hs
    · have he : x = (before ++ article ++ gap ++ ['t', 'h']) ++ ['e'] := by simp [h.eq, article]
      have := hs 'e' (by rw [he, List.getLast?_concat]; rfl)
      exact absurd this (by decide)
    · exact hs c hc

-- A character that is not in the middle part stands in front of it or behind.
theorem exists_of_append_cons_eq {α : Type} {x y u m v : List α} {c : α} (h : x ++ c :: y = u ++ (m ++ v))
    (hm : c ∉ m) : (∃ r, u = x ++ c :: r ∧ y = r ++ (m ++ v)) ∨ ∃ r, x = u ++ (m ++ r) ∧ v = r ++ c :: y := by
  obtain ⟨r, rfl, hr⟩ | ⟨r, rfl, hr⟩ := List.append_eq_append_iff.mp h
  case inl =>
    cases r
    case cons d r =>
      obtain ⟨rfl, hy⟩ := List.cons.inj hr
      exact .inl ⟨r, rfl, hy⟩
    case nil =>
      cases m
      case nil => exact .inr ⟨[], by simp, hr.symm⟩
      case cons d m =>
        obtain ⟨rfl, _⟩ := List.cons.inj hr
        exact absurd List.mem_cons_self hm
  case inr =>
    obtain ⟨e, rfl, he⟩ | ⟨e, rfl, he⟩ := List.append_eq_append_iff.mp hr
    case inl => exact .inr ⟨e, rfl, he⟩
    case inr =>
      cases e
      case nil => exact .inr ⟨[], by simp, he.symm⟩
      case cons d e =>
        obtain ⟨rfl, _⟩ := List.cons.inj he
        exact absurd (List.mem_append_right r List.mem_cons_self) hm

-- What stands on both sides of a character that is neither in the word nor a blank stays apart.
theorem hasDoubledArticle_append_cons_iff (hw : isWord c = false) (hb : isBlank c = false) :
    HasDoubledArticle (x ++ c :: y) ↔ HasDoubledArticle x ∨ HasDoubledArticle y := by
  constructor
  case mp =>
    rintro ⟨before, gap, behind, h⟩
    have hm : c ∉ article ++ gap ++ article := by
      have ha : c ∉ article := fun hm => by simp [isWord_of_mem_article c hm] at hw
      have hg : c ∉ gap := fun hm => by simp [h.blank c hm] at hb
      simp [ha, hg]
    obtain ⟨r, rfl, hr⟩ | ⟨r, rfl, hr⟩ := exists_of_append_cons_eq h.eq hm
    case inl =>
      refine .inr ⟨r, gap, behind, hr, h.gap_ne, h.blank, fun d hd => h.starts d ?_, h.ends⟩
      rw [List.append_cons]
      exact List.mem_getLast?_append_of_mem_getLast? hd
    case inr =>
      refine .inl ⟨before, gap, r, rfl, h.gap_ne, h.blank, h.starts, fun d hd => h.ends d ?_⟩
      rw [hr]
      exact List.mem_head?_append_of_mem_head? hd
  case mpr =>
    rintro (h | h)
    · exact h.append_right (.inr (by simpa using hw))
    · have := h.append_left (x := x ++ [c]) (.inl (by simpa using hw))
      simpa using this

theorem not_isWord_getLast? {u p : Text} (hp : p ⊆ article) (hn : p ≠ []) :
    ¬∀ c ∈ (u ++ p).getLast?, isWord c = false := by
  intro h
  have hl : p.getLast hn ∈ (u ++ p).getLast? :=
    List.mem_getLast?_append_of_mem_getLast? (List.getLast_mem_getLast? hn)
  have := h _ hl
  rw [isWord_of_mem_article _ (hp (List.getLast_mem hn))] at this
  contradiction

-- Behind a character that is not of the word and in front of one that is no blank, the doubled word can only be
-- cut in front of its second half.
theorem eq_of_cut {u v : Text} (h : article ++ gap ++ article = u ++ v) (hu : u ≠ [])
    (hw : ∀ c ∈ u.getLast?, isWord c = false) (hg : ∀ c ∈ gap, isBlank c = true)
    (hv : ∀ c ∈ v.head?, isBlank c = false) : u = article ++ gap ∧ v = article := by
  obtain ⟨p, rfl, hp⟩ | ⟨p, hp, rfl⟩ := List.append_eq_append_iff.mp h
  case inl =>
    by_cases hn : p = []
    case pos => subst hn; exact ⟨by simp, by simpa using hp.symm⟩
    case neg => exact absurd hw (not_isWord_getLast? (hp ▸ List.subset_append_left p v) hn)
  case inr =>
    obtain ⟨q, rfl, rfl⟩ | ⟨q, hq, _⟩ := List.append_eq_append_iff.mp hp
    case inr => exact absurd hw (not_isWord_getLast? (u := []) (hq ▸ List.subset_append_left u q) hu)
    case inl =>
      cases p
      case nil => exact ⟨by simp, rfl⟩
      case cons c p =>
        have := hv c rfl
        rw [hg c (by simp)] at this
        contradiction

theorem hasDoubledArticle_append_iff (hx : ∀ c ∈ x.getLast?, isWord c = false)
    (hy : ∀ c ∈ y.head?, isBlank c = false) :
    HasDoubledArticle (x ++ y) ↔
      HasDoubledArticle x ∨ HasDoubledArticle y ∨ HasArticleAtEnd x ∧ word y = article := by
  constructor
  case mp =>
    rintro ⟨before, gap, behind, h⟩
    obtain ⟨r, rfl, hr⟩ | ⟨r, rfl, hr⟩ := List.append_eq_append_iff.mp h.eq
    case inl =>
      refine .inr (.inl ⟨r, gap, behind, hr, h.gap_ne, h.blank, fun d hd => h.starts d ?_, h.ends⟩)
      exact List.mem_getLast?_append_of_mem_getLast? hd
    case inr =>
      obtain ⟨e, rfl, rfl⟩ | ⟨e, he, rfl⟩ := List.append_eq_append_iff.mp hr
      case inl =>
        refine .inl ⟨before, gap, e, rfl, h.gap_ne, h.blank, h.starts, fun d hd => h.ends d ?_⟩
        exact List.mem_head?_append_of_mem_head? hd
      case inr =>
        by_cases hn : r = []
        case pos =>
          refine .inr (.inl ⟨[], gap, behind, ?_, h.gap_ne, h.blank, nofun, h.ends⟩)
          rw [he, hn]
          rfl
        case neg =>
          obtain ⟨rfl, rfl⟩ := eq_of_cut he hn (fun c hc => hx c (List.mem_getLast?_append_of_mem_getLast? hc))
            h.blank fun c hc => hy c (List.mem_head?_append_of_mem_head? hc)
          exact .inr (.inr ⟨⟨before, gap, rfl, h.gap_ne, h.blank, h.starts⟩, word_article_append h.ends⟩)
  case mpr =>
    rintro (h | h | ⟨⟨before, gap, h⟩, hw⟩)
    · exact h.append_right (.inl hx)
    · exact h.append_left (.inl hx)
    · refine ⟨before, gap, afterWord y, ?_, h.gap_ne, h.blank, h.starts, fun _ => not_isWord_of_head?_afterWord⟩
      have he : article ++ afterWord y = y := hw ▸ word_append_afterWord y
      rw [h.eq, List.append_assoc, List.append_assoc, List.append_assoc, List.append_assoc, he]

theorem hasDoubledArticle_word_append_iff (hw : ∀ c ∈ w, isWord c = true) (hn : w ≠ article)
    (hy : ∀ c ∈ y.head?, isWord c = false) : HasDoubledArticle (w ++ y) ↔ HasDoubledArticle y := by
  constructor
  case mpr => exact fun h => h.append_left (.inr hy)
  case mp =>
    rintro ⟨before, gap, behind, h⟩
    obtain ⟨r, rfl, hr⟩ | ⟨r, rfl, hr⟩ := List.append_eq_append_iff.mp h.eq
    case inl =>
      refine ⟨r, gap, behind, hr, h.gap_ne, h.blank, fun d hd => h.starts d ?_, h.ends⟩
      exact List.mem_getLast?_append_of_mem_getLast? hd
    case inr =>
      obtain rfl | ⟨before, d, rfl⟩ := before.eq_nil_or_concat'
      case inr =>
        have := h.starts d (by simp)
        rw [hw d (by simp)] at this
        contradiction
      case inl =>
        -- The text starts with the word, so its first word is the article.
        have hg : ∀ c ∈ (gap ++ (article ++ behind)).head?, isWord c = false := by
          obtain ⟨g, gap, rfl⟩ := List.exists_cons_of_ne_nil h.gap_ne
          simpa using not_isWord_of_isBlank (h.blank g List.mem_cons_self)
        have he := congrArg word hr
        rw [List.append_assoc, List.append_assoc, word_article_append hg, word_append (by simpa using hw) hy] at he
        exact absurd he.symm hn

theorem HasArticleAtEnd.article_suffix (h : HasArticleAtEnd t) : article <:+ trimEnd t := by
  obtain ⟨before, gap, h⟩ := h
  have hl : ∀ c ∈ (before ++ article).getLast?, isBlank c = false := by
    have he : before ++ article = before ++ ['t', 'h'] ++ ['e'] := by simp [article]
    have hb : isBlank 'e' = false := by decide
    rw [he, List.getLast?_concat]
    simpa using hb
  rw [h.eq, ← List.append_assoc, trimEnd_append_blank h.blank, trimEnd_eq_self hl]
  exact List.suffix_append before article

end Article

section Selectors

variable {k k' : SelectorKind} {t y before name between before' name' behind behind' : Text} {c : Char}

theorem not_isBlank_of_isNameChar (h : isNameChar c = true) : isBlank c = false := by
  by_contra hb
  have := not_isNameChar_of_admitsSelector (admitsSelector_iff.mpr (.inl (by simpa using hb)))
  rw [h] at this
  contradiction

theorem not_isWord_of_not_isNameChar (h : isNameChar c = false) : isWord c = false :=
  (Bool.or_eq_false_iff.mp h).left

theorem not_isWord_of_admitted (h : isBlank c = true ∨ c = '\x22') : isWord c = false :=
  not_isWord_of_not_isNameChar (not_isNameChar_of_admitsSelector (admitsSelector_iff.mpr h))

theorem hasDoubledArticle_article_append_iff (hy : ∀ c ∈ y.head?, isBlank c = false) :
    HasDoubledArticle (article ++ ' ' :: y) ↔ word y = article ∨ HasDoubledArticle y := by
  have hb : isWord ' ' = false := by decide
  have hn : ¬HasDoubledArticle (article ++ [' ']) := by
    refine not_hasDoubledArticle_of_dropLast fun c hc => not_isBlank_of_isWord (isWord_of_mem_article c ?_)
    rwa [List.dropLast_concat] at hc
  have ha : HasArticleAtEnd (article ++ [' ']) :=
    ⟨[], [' '], rfl, List.cons_ne_nil _ _, List.forall_mem_singleton.mpr (by decide), nofun⟩
  rw [List.append_cons, hasDoubledArticle_append_iff (by simpa using hb) hy]
  simp only [hn, ha, false_or, true_and, or_comm]

theorem hasDoubledArticle_space_append_iff {x : Text} (hx : ∀ c ∈ x, isBlank c = false)
    (hy : ∀ c ∈ y.head?, isBlank c = false) (hw : word y ≠ article) :
    HasDoubledArticle (x ++ ' ' :: y) ↔ HasDoubledArticle y := by
  have hb : isWord ' ' = false := by decide
  have hn : ¬HasDoubledArticle (x ++ [' ']) :=
    not_hasDoubledArticle_of_dropLast (by rwa [List.dropLast_concat])
  rw [List.append_cons, hasDoubledArticle_append_iff (by simpa using hb) hy]
  simp only [hn, hw, and_false, or_false, false_or]

theorem phrase_append_eq (k : SelectorKind) (name y : Text) :
    k.phrase name ++ y = article ++ ' ' :: (name ++ ' ' :: (k.noun ++ y)) := by
  simp [SelectorKind.phrase, article]

-- The article that comes with a selector meets the name; behind the noun nothing more is doubled.
theorem hasDoubledArticle_phrase_append_iff (h : Both k k') (hl : ∀ c ∈ name, isNameChar c = true) (hn : name ≠ [])
    (hy : ∀ c ∈ y.head?, isNameChar c = false) :
    HasDoubledArticle (k.phrase name ++ y) ↔ word name = article ∨ HasDoubledArticle y := by
  have hs : isWord ' ' = false := by decide
  have hy' : ∀ c ∈ y.head?, isWord c = false := fun c hc => not_isWord_of_not_isNameChar (hy c hc)
  have hk : ∀ c ∈ k.noun, isWord c = true := by cases h <;> exact List.all_eq_true.mp (by decide)
  have hka : k.noun ≠ article := by cases h <;> decide
  have hkh : ∀ c ∈ (k.noun ++ y).head?, isBlank c = false := by
    obtain ⟨c, n, hc⟩ := List.exists_cons_of_ne_nil h.isPlain.noun_ne
    rw [hc] at hk ⊢
    simpa using not_isBlank_of_isWord (hk c List.mem_cons_self)
  have hnh : ∀ c ∈ (name ++ ' ' :: (k.noun ++ y)).head?, isBlank c = false := by
    obtain ⟨c, n, rfl⟩ := List.exists_cons_of_ne_nil hn
    simpa using not_isBlank_of_isNameChar (hl c List.mem_cons_self)
  have hw : word (name ++ ' ' :: (k.noun ++ y)) = word name := word_append_of_head (by simpa using hs)
  rw [phrase_append_eq, hasDoubledArticle_article_append_iff hnh, hw,
    hasDoubledArticle_space_append_iff (fun c hc => not_isBlank_of_isNameChar (hl c hc)) hkh
      (by rwa [word_append hk hy']), hasDoubledArticle_word_append_iff hk hka hy']

-- It also meets the article that stands in front of it.
theorem hasDoubledArticle_reworded_iff (h : Both k k') (ha : ∀ c ∈ before.getLast?, isBlank c = true ∨ c = '\x22')
    (hl : ∀ c ∈ name, isNameChar c = true) (hn : name ≠ []) (hy : ∀ c ∈ y.head?, isNameChar c = false) :
    HasDoubledArticle (before ++ (k.phrase name ++ y)) ↔
      HasDoubledArticle before ∨ (HasArticleAtEnd before ∨ word name = article) ∨ HasDoubledArticle y := by
  have hs : isWord ' ' = false := by decide
  have hb : isBlank 't' = false := by decide
  have hw : word (k.phrase name ++ y) = article := by
    rw [phrase_append_eq]
    exact word_article_append (by simpa using hs)
  have hh : ∀ c ∈ (k.phrase name ++ y).head?, isBlank c = false := by
    rw [phrase_append_eq]
    simpa [article] using hb
  rw [hasDoubledArticle_append_iff (fun c hc => not_isWord_of_admitted (ha c hc)) hh, hw,
    hasDoubledArticle_phrase_append_iff h hl hn hy]
  tauto

-- As it stood, the selector kept apart what is on both sides of it.
theorem hasDoubledArticle_append_selector (hk : k.IsPlain) (hy : ∀ c ∈ y.head?, isNameChar c = false)
    (h : HasDoubledArticle before ∨ HasDoubledArticle y) : HasDoubledArticle (before ++ k.mark :: (name ++ y)) := by
  obtain h | h := h
  case inl => exact h.append_right (.inr (by simpa using not_isWord_of_not_isNameChar hk.mark))
  case inr =>
    rw [List.append_cons, ← List.append_assoc]
    exact h.append_left (.inr fun c hc => not_isWord_of_not_isNameChar (hy c hc))

-- The article that comes with the first selector of the kind finds one in front of it, where the other kind may
-- have left its words, or in the name.
def MeetsArticle (k : SelectorKind) (t : Text) : Prop :=
  ∃ before name behind, IsFirstSelector k t before name behind ∧
    (HasArticleAtEnd (describeSelectors before) ∨ word name = article)

theorem IsFirstSelector.meetsArticle_iff (h : IsFirstSelector k t before name behind) :
    MeetsArticle k t ↔ HasArticleAtEnd (describeSelectors before) ∨ word name = article := by
  constructor
  case mpr => exact fun hm => ⟨before, name, behind, h, hm⟩
  case mp =>
    rintro ⟨before', name', behind', h', hm⟩
    obtain ⟨rfl, rfl⟩ := h.inj h'
    exact hm

theorem MeetsArticle.hasSelector (h : MeetsArticle k t) : HasSelector k t := by
  obtain ⟨before, name, behind, hf, _⟩ := h
  exact ⟨before, name, behind, hf.toIsSelector⟩

theorem Both.meetsArticle_iff (h : Both k k') :
    MeetsArticle .field t ∨ MeetsArticle .element t ↔ MeetsArticle k t ∨ MeetsArticle k' t := by
  cases h
  case fieldFirst   => rfl
  case elementFirst => exact or_comm

theorem hasDoubledArticle_of_one_selector (h : Both k k') (hn : ¬HasSelector k' t)
    (hf : IsFirstSelector k t before name behind) (ht : ¬HasDoubledArticle t) :
    HasDoubledArticle (describeSelectors t) ↔ MeetsArticle k t := by
  have hd : ¬(HasDoubledArticle before ∨ HasDoubledArticle behind) := fun hd =>
    ht (hf.eq ▸ hasDoubledArticle_append_selector h.isPlain hf.longest hd)
  have hk' : ¬HasSelector k' before := by
    rintro ⟨x, n, y, hs⟩
    exact hn ⟨x, n, _, hf.eq ▸ hs.append h.symm.isPlain (admitsBehind_eq_true hf.admitted) _⟩
  rw [← (Reworded.one h hn hf).eq_describeSelectors, hf.meetsArticle_iff,
    describeSelectors_of_not_hasSelector h (hf.not_hasSelector_before h.isPlain) hk',
    hasDoubledArticle_reworded_iff h hf.admitted hf.letters hf.name_ne_nil hf.longest]
  tauto

theorem hasDoubledArticle_of_two_selectors (h : Both k k')
    (hf : IsFirstSelector k t before name (between ++ k'.mark :: (name' ++ behind)))
    (hf' : IsFirstSelector k' t (before ++ k.mark :: (name ++ between)) name' behind) (ht : ¬HasDoubledArticle t) :
    HasDoubledArticle (describeSelectors t) ↔ MeetsArticle k t ∨ MeetsArticle k' t := by
  have hd : ¬(HasDoubledArticle (before ++ k.mark :: (name ++ between)) ∨ HasDoubledArticle behind) := fun hd =>
    ht (hf'.eq ▸ hasDoubledArticle_append_selector h.symm.isPlain hf'.longest hd)
  have hk' := hf'.not_hasSelector_before h.symm.isPlain
  have hb := (hf'.eq ▸ hf).of_append h.isPlain (admitsBehind_eq_true hf'.admitted) rfl
  have hm := hasDoubledArticle_of_one_selector h hk' hb fun hx => hd (.inl hx)
  have he := (Reworded.one h hk' hb).eq_describeSelectors
  have ha : ∀ c ∈ (before ++ (k.phrase name ++ between)).getLast?, isBlank c = true ∨ c = '\x22' := by
    rw [← List.append_assoc]
    exact hb.admitted_append hf'.admitted _
  have hu : describeSelectors t = (before ++ (k.phrase name ++ between)) ++ (k'.phrase name' ++ behind) := by
    rw [← (Reworded.two h hf hf').eq_describeSelectors]
    simp
  rw [hu, hasDoubledArticle_reworded_iff h.symm ha hf'.letters hf'.name_ne_nil hf'.longest, he, hm,
    hf'.meetsArticle_iff, hb.meetsArticle_iff, hf.meetsArticle_iff]
  tauto

-- Selectors bring the doubled article with them exactly where one of theirs meets another one.
theorem hasDoubledArticle_describeSelectors_iff (h : ¬HasDoubledArticle t) :
    HasDoubledArticle (describeSelectors t) ↔ MeetsArticle .field t ∨ MeetsArticle .element t := by
  obtain ⟨u, hu⟩ := exists_reworded t
  cases hu
  case none hn =>
    have hm {k k'} (hk : Both k k') : ¬MeetsArticle k t := fun hm => hn k k' hk hm.hasSelector
    rw [describeSelectors_of_not_hasSelector .fieldFirst (hn _ _ .fieldFirst) (hn _ _ .elementFirst)]
    simp [h, hm .fieldFirst, hm .elementFirst]
  case one hk hn hf =>
    rw [hk.meetsArticle_iff, hasDoubledArticle_of_one_selector hk hn hf h, or_iff_left fun hm => hn hm.hasSelector]
  case two hk hf hf' =>
    rw [hk.meetsArticle_iff, hasDoubledArticle_of_two_selectors hk hf hf' h]

end Selectors

section Openings

variable {o : Opening} {t r x y : Text}

-- Words that have nothing to do with the article.
theorem hasDoubledArticle_wording_append_iff (hx : x.getLast? = some ' ') (hc : x.count 'h' < 2)
    (ha : ¬article <:+ trimEnd x) (hy : ∀ c ∈ y.head?, isBlank c = false) :
    HasDoubledArticle (x ++ y) ↔ HasDoubledArticle y := by
  have hs : isWord ' ' = false := by decide
  have hn : ¬HasDoubledArticle x := fun h => absurd h.two_le_count (by omega)
  have ha : ¬HasArticleAtEnd x := fun h => ha h.article_suffix
  rw [hasDoubledArticle_append_iff (by simpa [hx] using hs) hy]
  simp only [hn, ha, false_or, false_and, or_false]

theorem not_isBlank_of_word_ne (h : word r ≠ []) : ∀ c ∈ r.head?, isBlank c = false := by
  obtain ⟨d, hd, hw⟩ := word_ne_nil_iff.mp h
  intro c hc
  rw [Option.mem_unique hc hd]
  exact not_isBlank_of_isWord hw

-- The verb is no article, so behind it the sentence has what it has all in all.
theorem Opening.IsVerbal.hasDoubledArticle_iff (ho : o.IsVerbal) (h : o.object? t = some r) :
    HasDoubledArticle t ↔ HasDoubledArticle r := by
  obtain ⟨hw, ht, hr⟩ := ho.object?_eq_some_iff.mp h
  have hs : isWord ' ' = false := by decide
  have hn : word t ≠ article := by
    intro he
    rw [he] at hw
    exact ho.name_ne (hw ▸ by decide)
  conv_lhs => rw [← word_append_afterWord t, ht]
  rw [hasDoubledArticle_word_append_iff (fun _ => isWord_of_mem_word) hn (by simpa using hs), ← List.singleton_append,
    hasDoubledArticle_wording_append_iff rfl (by decide) (by decide) (not_isBlank_of_word_ne hr)]

theorem hasDoubledArticle_enter_iff (hr : word r ≠ []) :
    HasDoubledArticle (Opening.enter.lead ++ word r ++ Opening.enter.tail ++ afterWord r) ↔ HasDoubledArticle r := by
  have hl : Opening.enter.lead = "the user enters ".toList := rfl
  have ht : Opening.enter.tail = [] := rfl
  have he : Opening.enter.lead ++ word r ++ Opening.enter.tail ++ afterWord r = "the user enters ".toList ++ r := by
    rw [hl, ht, List.append_nil, List.append_assoc, word_append_afterWord]
  rw [he, hasDoubledArticle_wording_append_iff (by decide) (by decide) (by decide) (not_isBlank_of_word_ne hr)]

theorem hasDoubledArticle_click_iff (hr : word r ≠ []) :
    HasDoubledArticle (Opening.click.lead ++ word r ++ Opening.click.tail ++ afterWord r) ↔
      word r = article ∨ HasDoubledArticle r := by
  have hb : isBlank 't' = false := by decide
  have hl : Opening.click.lead = "the user clicks ".toList ++ (article ++ [' ']) := by decide
  have ht : Opening.click.tail = [] := rfl
  have he : Opening.click.lead ++ word r ++ Opening.click.tail ++ afterWord r =
      "the user clicks ".toList ++ (article ++ ' ' :: r) := by
    rw [hl, ht, List.append_nil, List.append_assoc, word_append_afterWord, List.append_assoc, List.append_assoc,
      List.singleton_append]
  rw [he, hasDoubledArticle_wording_append_iff (by decide) (by decide) (by decide) (by simpa [article] using hb),
    hasDoubledArticle_article_append_iff (not_isBlank_of_word_ne hr)]

theorem hasDoubledArticle_verify_iff (hr : word r ≠ []) :
    HasDoubledArticle (Opening.verify.lead ++ word r ++ Opening.verify.tail ++ afterWord r) ↔
      word r = article ∨ HasDoubledArticle r := by
  have hs : isWord ' ' = false := by decide
  have hv : isBlank 'v' = false := by decide
  have hl : Opening.verify.lead = article ++ [' '] := by decide
  have ht : Opening.verify.tail = " should be ".toList ++ "visible".toList := by decide
  have he : Opening.verify.lead ++ word r ++ Opening.verify.tail ++ afterWord r =
      article ++ ' ' :: (word r ++ (" should be ".toList ++ ("visible".toList ++ afterWord r))) := by
    rw [hl, ht, List.append_assoc, List.append_assoc, List.append_assoc, List.append_assoc, List.singleton_append]
  have hh : ∀ c ∈ (word r ++ (" should be ".toList ++ ("visible".toList ++ afterWord r))).head?,
      isBlank c = false := by
    obtain ⟨c, w, hw⟩ := List.exists_cons_of_ne_nil hr
    have := isWord_of_mem_word (hw ▸ List.mem_cons_self : c ∈ word r)
    simpa [hw] using not_isBlank_of_isWord this
  have hw : word (word r ++ (" should be ".toList ++ ("visible".toList ++ afterWord r))) = word r :=
    word_append (fun _ => isWord_of_mem_word) (by simpa using hs)
  have ha : ∀ c ∈ (afterWord r).head?, isWord c = false := fun _ => not_isWord_of_head?_afterWord
  rw [he, hasDoubledArticle_article_append_iff hh, hw]
  by_cases hn : word r = article
  case pos => simp [hn]
  case neg =>
    have hr : HasDoubledArticle r ↔ HasDoubledArticle (afterWord r) := by
      conv_lhs => rw [← word_append_afterWord r]
      exact hasDoubledArticle_word_append_iff (fun _ => isWord_of_mem_word) hn ha
    rw [hr, hasDoubledArticle_word_append_iff (fun _ => isWord_of_mem_word) hn (by simpa using hs),
      hasDoubledArticle_wording_append_iff (by decide) (by decide) (by decide) (by simpa using hv),
      hasDoubledArticle_word_append_iff (List.all_eq_true.mp (by decide)) (by decide) ha]

-- The openings whose words end in an article.
def articled : List Opening := [.click, .verify]

theorem mem_openings_of_mem_articled (h : o ∈ articled) : o ∈ openings :=
  List.mem_cons_of_mem _ h

theorem hasDoubledArticle_opened_iff (ho : o ∈ openings) (hr : word r ≠ []) :
    HasDoubledArticle (o.lead ++ word r ++ o.tail ++ afterWord r) ↔
      HasDoubledArticle r ∨ o ∈ articled ∧ word r = article := by
  have he : Opening.enter ∉ articled := fun h => absurd (List.mem_map_of_mem (f := Opening.name) h) (by decide)
  have hm : ∀ o ∈ articled, HasDoubledArticle (o.lead ++ word r ++ o.tail ++ afterWord r) ↔
      word r = article ∨ HasDoubledArticle r := by
    simp only [articled, List.mem_cons, forall_eq_or_imp]
    exact ⟨hasDoubledArticle_click_iff hr, hasDoubledArticle_verify_iff hr, nofun⟩
  obtain rfl | ho : o = .enter ∨ o ∈ articled := List.mem_cons.mp ho
  case inl => simp only [he, false_and, or_false, hasDoubledArticle_enter_iff hr]
  case inr => rw [hm o ho, and_iff_right ho, or_comm]

-- An opening brings the doubled article with it if one stands behind the verb already.
theorem hasDoubledArticle_applyOpenings_iff (t : Text) :
    HasDoubledArticle (applyOpenings t) ↔
      HasDoubledArticle t ∨ ∃ o ∈ articled, ∃ r, o.object? t = some r ∧ word r = article := by
  obtain ⟨hn, ht⟩ | ⟨o, ho, r, hr, ht⟩ := applyOpenings_cases t
  case inl =>
    have hn : ¬∃ o ∈ articled, ∃ r, o.object? t = some r ∧ word r = article := by
      rintro ⟨o, ho, r, hr, _⟩
      rw [hn o (mem_openings_of_mem_articled ho)] at hr
      contradiction
    rw [ht, or_iff_left hn]
  case inr =>
    have hv := isVerbal_of_mem_openings o ho
    have he : (∃ o ∈ articled, ∃ r, o.object? t = some r ∧ word r = article) ↔ o ∈ articled ∧ word r = article := by
      constructor
      case mpr => exact fun ⟨ho, hw⟩ => ⟨o, ho, r, hr, hw⟩
      case mp =>
        rintro ⟨o', ho', r', hr', hw⟩
        have ho'' := mem_openings_of_mem_articled ho'
        obtain ⟨hn, rfl⟩ := hv.object?_inj (isVerbal_of_mem_openings o' ho'') hr hr'
        exact ⟨List.inj_on_of_nodup_map nodup_map_name_openings ho ho'' hn ▸ ho', hw⟩
    rw [ht, he, hasDoubledArticle_opened_iff ho (hv.object?_eq_some_iff.mp hr).right.right, hv.hasDoubledArticle_iff hr]

end Openings

section Telling

variable {t label code : Text}

-- The quote marks around the value keep it apart from the sentence.
theorem hasDoubledArticle_insertValue {v : Text} (ht : ¬HasDoubledArticle t) (hv : ¬HasDoubledArticle v) :
    ¬HasDoubledArticle (insertValue t v) := by
  have hw : isWord '\x22' = false := by decide
  have hb : isBlank '\x22' = false := by decide
  have hf : ¬HasDoubledArticle (word t ++ [' ']) := by
    refine not_hasDoubledArticle_of_dropLast fun c hc => not_isBlank_of_isWord (isWord_of_mem_word (t := t) ?_)
    rwa [List.dropLast_concat] at hc
  have ha : ¬HasDoubledArticle (afterWord t) := fun h =>
    ht (word_append_afterWord t ▸ h.append_left (.inr fun _ => not_isWord_of_head?_afterWord))
  have he : word t ++ [' ', '\x22'] ++ v ++ '\x22' :: afterWord t =
      (word t ++ [' ']) ++ '\x22' :: (v ++ '\x22' :: afterWord t) := by simp
  rw [insertValue]
  split
  case isTrue => exact ht
  case isFalse =>
    rw [he, hasDoubledArticle_append_cons_iff hw hb, hasDoubledArticle_append_cons_iff hw hb]
    tauto

theorem hasDoubledArticle_splice (ht : ¬HasDoubledArticle (stripQuotes label))
    (hv : ∀ v ∈ toldValue? label code, ¬HasDoubledArticle v) :
    ¬HasDoubledArticle (splice (stripQuotes label) code) := by
  cases hc : value? code
  case none => rwa [splice, hc]
  case some v =>
    have he : splice (stripQuotes label) code = insertValue (stripQuotes label) v := by rw [splice, hc]
    rw [he]
    by_cases hw : (word (stripQuotes label)).isEmpty = true
    case pos => rwa [insertValue, if_pos hw]
    case neg => exact hasDoubledArticle_insertValue ht (hv v (by rw [toldValue?, if_neg hw, hc]; rfl))

end Telling

-- Where neither the label nor the value has the article twice in a row, the sentence has it exactly if a selector
-- meets one, or the verb that is told in full.
theorem hasDoubledArticle_tell_iff {label code : Text} (h : ¬HasDoubledArticle (stripQuotes label))
    (hv : ∀ v ∈ toldValue? label code, ¬HasDoubledArticle v) :
    HasDoubledArticle (tell label code) ↔
      (MeetsArticle .field (splice (stripQuotes label) code) ∨
        MeetsArticle .element (splice (stripQuotes label) code)) ∨
      ∃ o ∈ articled, ∃ r, o.object? (described label code) = some r ∧ word r = article := by
  rw [tell, hasDoubledArticle_applyOpenings_iff,
    hasDoubledArticle_describeSelectors_iff (hasDoubledArticle_splice h hv), described]

theorem hasDoubledArticle_tell_click :
    ¬HasDoubledArticle (stripQuotes "click the button".toList) ∧
      (∀ v ∈ toldValue? "click the button".toList [], ¬HasDoubledArticle v) ∧
      HasDoubledArticle (tell "click the button".toList []) := by
  have h : ¬HasDoubledArticle (stripQuotes "click the button".toList) := fun h => absurd h.two_le_count (by decide)
  have hv : ∀ v ∈ toldValue? "click the button".toList [], ¬HasDoubledArticle v := nofun
  refine ⟨h, hv, (hasDoubledArticle_tell_iff h hv).mpr (.inr ⟨.click, List.mem_cons_self, "the button".toList, ?_, ?_⟩)⟩
  case refine_1 => decide +kernel
  case refine_2 => decide

-- Neither the label nor the value has the doubled article, but the sentence.
structure GainsArticle (label code : Text) : Prop where
  before : ¬HasDoubledArticle (stripQuotes label)
  value : ∀ v ∈ toldValue? label code, ¬HasDoubledArticle v
  told : HasDoubledArticle (tell label code)

theorem gainsArticle_labels :
    GainsArticle "click the button".toList [] ∧ GainsArticle "verify the cart".toList [] ∧
      GainsArticle "click #id".toList [] ∧ GainsArticle "verify .class".toList [] ∧
      GainsArticle "open the #menu".toList [] := by
  have key {label : Text} (hc : (stripQuotes label).count 'h' < 2) (hd : HasDoubledArticle (tell label [])) :
      GainsArticle label [] := by
    have hv : toldValue? label [] = none := ite_self none
    exact ⟨fun h => absurd h.two_le_count (by omega), by simp [hv], hd⟩
  have opened {label r : Text} {o : Opening} (ho : o ∈ articled) (hr : o.object? (described label []) = some r)
      (hw : word r = article) : HasDoubledArticle (tell label []) :=
    (hasDoubledArticle_applyOpenings_iff _).mpr (.inr ⟨o, ho, r, hr, hw⟩)
  have hc : Opening.click ∈ articled := List.mem_cons_self
  have hv : Opening.verify ∈ articled := List.mem_cons_of_mem _ List.mem_cons_self
  have menu : HasDoubledArticle (tell "open the #menu".toList []) := by
    have hs : isWord ' ' = false := by decide
    have hb : ∀ c ∈ [' '], isBlank c = true := List.forall_mem_singleton.mpr (by decide)
    exact ⟨"open".toList ++ [' '], [' '], ' ' :: "menu field".toList, by decide +kernel, List.cons_ne_nil _ _, hb,
      by simpa using hs, by simpa using hs⟩
  exact ⟨key (by decide) (opened hc (r := "the button".toList) (by decide +kernel) (by decide)),
    key (by decide) (opened hv (r := "the cart".toList) (by decide +kernel) (by decide)),
    key (by decide) (opened hc (r := "the id field".toList) (by decide +kernel) (by decide)),
    key (by decide) (opened hv (r := "the class element".toList) (by decide +kernel) (by decide)),
    key (by decide) menu⟩

end GherkinView.Sentence
