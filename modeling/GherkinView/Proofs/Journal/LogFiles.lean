import GherkinView.Journal.Channels
import GherkinView.Proofs.File.Frame

namespace GherkinView.Journal

open File File.Tree

def Handler.location? : Handler → Option Location
  | console => none
  | file l => some l

def Channel.logFiles (c : Channel) : List Location :=
  c.handlers.filterMap Handler.location?

def Channels.logFiles (cs : Channels) : List Location :=
  cs.root.logFiles ++ cs.named.flatMap fun (_, c) => c.logFiles

variable {l : Location} {cs : Channels} {c : Channel} {name : Text}

theorem Channel.mem_logFiles (h : .file l ∈ c.handlers) : l ∈ c.logFiles :=
  List.mem_filterMap.mpr ⟨_, h, rfl⟩

namespace Channels

theorem mem_handlersOf {h : Handler} {chain : List Channel} (hm : h ∈ handlersOf chain) :
    ∃ c ∈ chain, h ∈ c.handlers := by
  induction chain
  case nil => contradiction
  case cons c chain hi =>
    rw [handlersOf] at hm
    obtain hm | hm := List.mem_append.mp hm
    case inl => exact ⟨c, List.mem_cons_self, hm⟩
    case inr =>
      split at hm
      case isFalse => contradiction
      case isTrue =>
        have ⟨c', hc, hh⟩ := hi hm
        exact ⟨c', List.mem_cons_of_mem _ hc, hh⟩

theorem logFiles_root_subset (cs : Channels) : cs.root.logFiles ⊆ cs.logFiles :=
  List.subset_append_left _ _

theorem logFiles_get_subset (cs : Channels) (name : Text) :
    (cs.get name).logFiles ⊆ cs.logFiles := by
  rw [get]
  split
  case isTrue => exact cs.logFiles_root_subset
  case isFalse =>
    cases hc : cs.named.lookup name
    case none   => exact List.nil_subset _
    case some c =>
      have ⟨before, after, he, _⟩ := List.lookup_eq_some_iff.mp hc
      intro l hl
      refine List.mem_append_right _ (List.mem_flatMap.mpr ⟨(name, c), ?_, hl⟩)
      rw [he]
      exact List.mem_append_right _ List.mem_cons_self

theorem exists_name_of_mem_chain (hc : c ∈ cs.chain name) : ∃ name', c = cs.get name' := by
  have h (n : Nat) (name : Text) (hc : c ∈ chain.climb cs n name) : ∃ name', c = cs.get name' := by
    induction n generalizing name
    case zero => exact ⟨[], List.mem_singleton.mp hc⟩
    case succ n hi =>
      rw [chain.climb] at hc
      split at hc
      case isTrue => exact ⟨[], List.mem_singleton.mp hc⟩
      case isFalse =>
        obtain rfl | hc := List.mem_cons.mp hc
        · exact ⟨name, rfl⟩
        · exact hi _ hc
  exact h _ name hc

theorem logFiles_chain_subset (hc : c ∈ cs.chain name) : c.logFiles ⊆ cs.logFiles := by
  obtain ⟨name', rfl⟩ := exists_name_of_mem_chain hc
  exact cs.logFiles_get_subset name'

theorem mem_logFiles_of_mem_handlersOf (h : .file l ∈ handlersOf (cs.chain name)) :
    l ∈ cs.logFiles :=
  have ⟨_, hc, hh⟩ := mem_handlersOf h
  logFiles_chain_subset hc (Channel.mem_logFiles hh)

end Channels

-- What telling does to a desk: it writes to log files that are there.
structure Desk.Told (d d' : Desk) : Prop where
  channels : d'.channels = d.channels
  same : SameBut d.channels.logFiles d.tree d'.tree

namespace Desk.Told

variable {d d' d'' : Desk}

theorem keeps (h : Told d d') : KeepsBut d.channels.logFiles d.tree d'.tree :=
  h.same.keepsBut

theorem refl (d : Desk) : Told d d :=
  ⟨rfl, SameBut.refl _ _⟩

theorem trans (h : Told d d') (h' : Told d' d'') : Told d d'' :=
  ⟨h'.channels.trans h.channels, h.same.trans (h.channels ▸ h'.same)⟩

theorem handle (r : Record) {h : Handler} (hh : ∀ l, h = .file l → l ∈ d.channels.logFiles) :
    Told d (d.handle r h) := by
  cases h
  case console => exact ⟨rfl, SameBut.refl _ _⟩
  case file l =>
    have hs : [l] ⊆ d.channels.logFiles := List.cons_subset.mpr ⟨hh l rfl, List.nil_subset _⟩
    exact ⟨rfl, (SameBut.append d.tree l r.plainLine).mono hs⟩

theorem handleAll (r : Record) {hs : List Handler}
    (hh : ∀ l, .file l ∈ hs → l ∈ d.channels.logFiles) : Told d (hs.foldl (Desk.handle r) d) := by
  induction hs generalizing d
  case nil => exact refl d
  case cons h hs hi =>
    have ht := handle r (d := d) (h := h) fun l he => hh l (he ▸ List.mem_cons_self)
    exact ht.trans (hi fun l hl => ht.channels ▸ hh l (List.mem_cons_of_mem _ hl))

theorem tell (d : Desk) (r : Record) : Told d (d.tell r) := by
  rw [Desk.tell]
  split
  case isFalse => exact refl d
  case isTrue =>
    split
    case h_1 => split <;> exact ⟨rfl, SameBut.refl _ _⟩
    case h_2 => exact handleAll r fun l => Channels.mem_logFiles_of_mem_handlersOf

theorem tellAll (d : Desk) (rs : List Record) : Told d (d.tellAll rs) := by
  induction rs generalizing d
  case nil           => exact refl d
  case cons r rs hi  => exact (tell d r).trans (hi (d.tell r))

end Desk.Told
end GherkinView.Journal
