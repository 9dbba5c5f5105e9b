import GherkinView.Proofs.Settings.Entries
import GherkinView.Yaml.Block

namespace GherkinView.Yaml

open Settings

def Seen.KeysDistinct (seen : Seen) : Prop :=
  ∀ e ∈ seen.named, e.2.KeysDistinct

-- Whatever is read satisfies `P`, and the values with a name go on having each key once.
def Gives {α : Type} (P : α → Prop) (read : Reading α) : Prop :=
  ∀ seen a seen', seen.KeysDistinct → read seen = .ok (a, seen') → P a ∧ seen'.KeysDistinct

namespace Gives

variable {α β : Type} {P : α → Prop} {Q : β → Prop} {a : α} {read : Reading α} {c : Prop} [Decidable c]

theorem malformed : Gives P .malformed := nofun

theorem pure (h : P a) : Gives P (Pure.pure a) := by
  rintro seen _ _ hs ⟨⟩
  exact ⟨h, hs⟩

theorem bind {rest : α → Reading β} (h : Gives P read) (hr : ∀ a, P a → Gives Q (rest a)) :
    Gives Q (read >>= rest) := by
  intro seen b seen'' hs hb
  have hb : (read seen >>= fun r => rest r.1 r.2) = .ok (b, seen'') := hb
  cases ha : read seen <;> rw [ha] at hb
  case error => contradiction
  case ok r =>
    obtain ⟨ha, hs⟩ := h seen r.1 r.2 hs ha
    exact hr r.1 ha r.2 b seen'' hs hb

theorem ite {other : Reading α} (h : c → Gives P read) (ho : ¬c → Gives P other) :
    Gives P (if c then read else other) := by
  split
  case isTrue hc  => exact h hc
  case isFalse hc => exact ho hc

theorem get : Gives Seen.KeysDistinct MonadState.get := by
  rintro seen _ _ hs ⟨⟩
  exact ⟨hs, hs⟩

theorem set {seen : Seen} (h : seen.KeysDistinct) : Gives (fun _ => True) (MonadStateOf.set seen : Reading PUnit) := by
  rintro _ _ _ _ ⟨⟩
  exact ⟨trivial, h⟩

-- What is read without a look at the names.
theorem lift (read : Except Unread α) : Gives (fun _ => True) (liftM read : Reading α) := by
  intro seen a seen' hs h
  have h : (read >>= fun a => .ok (a, seen)) = .ok (a, seen') := h
  cases read
  case error => contradiction
  case ok =>
    cases h
    exact ⟨trivial, hs⟩

theorem wellFormed {a? : Option α} (h : ∀ a ∈ a?, P a) : Gives P (.wellFormed a?) := by
  cases a?
  case none   => exact malformed
  case some a => exact pure (h a rfl)

theorem lookUp (anchor : Text) : Gives Value.KeysDistinct (.lookUp anchor) := by
  refine get.bind fun seen hs => ?_
  cases hv : seen.named.lookup anchor
  case none =>
    have hl : (Value.list []).KeysDistinct := .list nofun
    have hs : Seen.KeysDistinct { seen with endless := true } := hs
    exact ite (fun _ => (set hs).bind fun _ _ => pure hl) fun _ => malformed
  case some v =>
    obtain ⟨_, _, he, _⟩ := List.lookup_eq_some_iff.mp hv
    exact pure (hs (anchor, v) (by simp [he]))

theorem name (anchor : Text) (place : Nat) {read : Reading (Value × α)}
    (h : Gives (·.1.KeysDistinct) read) : Gives (·.1.KeysDistinct) (.name anchor place read) := by
  refine get.bind fun seen hs => ?_
  have hs : Seen.KeysDistinct { seen with opened := anchor :: seen.opened } := hs
  refine (set hs).bind fun _ _ => h.bind fun ⟨v, q⟩ hv => ?_
  refine get.bind fun seen hs => ite (fun _ => malformed) fun _ => ?_
  extract_lets w
  have hw : w.KeysDistinct := by
    unfold w
    split
    · exact hv.of_mapping
    · exact hv
  refine (set ?_).bind fun _ _ => pure hw
  exact List.forall_mem_cons.mpr ⟨hw, hs⟩

theorem value (s : Except Text Scalar) : Gives Value.KeysDistinct (.value s) := by
  cases s
  case ok s => exact pure (.scalar s)
  case error message =>
    rintro seen _ _ hs ⟨⟩
    exact ⟨.scalar .null, hs⟩

end Gives

def Distinct (r : Value × Cursor) : Prop := r.fst.KeysDistinct

def AllDistinct (r : List Value × Cursor) : Prop := ∀ v ∈ r.fst, v.KeysDistinct

def MembersDistinct (r : Entries × Cursor) : Prop := ∀ e ∈ r.fst, e.snd.KeysDistinct

theorem keysDistinct_single {k : Scalar} {v : Value} (h : v.KeysDistinct) :
    (Value.mapping [(k, v)]).KeysDistinct :=
  .mapping (List.nodup_singleton k.key) (List.forall_mem_singleton.mpr h)

theorem gives_name (p : Cursor) : Gives (fun _ => True) (readName p) :=
  .ite (fun _ => .malformed) fun _ => .pure trivial

theorem gives_scalar (flow : Bool) (least : Nat) (p : Cursor) : Gives Distinct (readScalar flow least p) := by
  rw [readScalar]
  split
  · exact (Gives.lift _).bind fun r _ => .pure (.scalar (.text r.1))
  · exact (Gives.lift _).bind fun r _ => .pure (.scalar (.text r.1))
  · refine (Gives.wellFormed fun _ _ => trivial).bind fun r _ => ?_
    exact (Gives.wellFormed fun _ _ => trivial).bind fun s _ => (Gives.value s).bind fun v hv => .pure hv

mutual

theorem gives_flow : ∀ n p, Gives Distinct (readFlow n p)
  | 0, _ => .malformed
  | n + 1, p => by
    rw [readFlow]
    split
    case isTrue => exact .malformed
    case isFalse =>
      split
      · exact (gives_items n _).bind fun _ h => .pure (.list h)
      · exact (gives_members n _).bind fun _ h => .pure (keysDistinct_setAll keysDistinct_nil h)
      · exact (gives_name p).bind fun r _ => (Gives.lookUp r.1).bind fun _ hv => .pure hv
      · exact (gives_name p).bind fun r _ => .ite (fun _ => .malformed) fun _ => .name r.1 _ (gives_flowValue n _)
      · exact gives_scalar true 0 p

theorem gives_flowValue : ∀ n p, Gives Distinct (readFlowValue n p)
  | 0, _ => .malformed
  | n + 1, p => by
    rw [readFlowValue]
    exact .ite (fun _ => .pure (.scalar .null)) fun _ => gives_flow n p

theorem gives_items : ∀ n p, Gives AllDistinct (readItems n p)
  | 0, _ => .malformed
  | n + 1, p => by
    rw [readItems]
    refine .ite (fun _ => .pure nofun) fun _ => (gives_flow n p).bind fun ⟨v, q⟩ h => ?_
    extract_lets rest
    have hr : ∀ r, Distinct r → Gives AllDistinct (rest r) := by
      intro r h
      refine .ite (fun _ => ?_) fun _ => .ite (fun _ => .pure ?_) fun _ => .malformed
      · exact (gives_items n _).bind fun _ hs => .pure (List.forall_mem_cons.mpr ⟨h, hs⟩)
      · exact List.forall_mem_singleton.mpr h
    have hv : Distinct (v, q.skipFiller) := h
    refine .ite (fun _ => ?_) fun _ => (Gives.pure hv).bind hr
    refine (Gives.wellFormed fun _ _ => trivial).bind fun k _ => (gives_flowValue n _).bind fun r h => ?_
    have hw : Distinct (.mapping [(k, r.fst)], r.snd.skipFiller) := keysDistinct_single h
    exact (Gives.pure hw).bind hr

theorem gives_members : ∀ n p, Gives MembersDistinct (readMembers n p)
  | 0, _ => .malformed
  | n + 1, p => by
    rw [readMembers]
    refine .ite (fun _ => .pure nofun) fun _ => (gives_flow n p).bind fun ⟨v, q⟩ h => ?_
    refine (Gives.wellFormed fun _ _ => trivial).bind fun k _ => ?_
    extract_lets q rest
    have hr : ∀ r, Distinct r → Gives MembersDistinct (rest r) := by
      intro r h
      refine .ite (fun _ => ?_) fun _ => .ite (fun _ => .pure ?_) fun _ => .malformed
      · exact (gives_members n _).bind fun _ hs => .pure (List.forall_mem_cons.mpr ⟨h, hs⟩)
      · exact List.forall_mem_singleton.mpr h
    have hn : Distinct (.null, q) := .scalar .null
    refine .ite (fun _ => ?_) fun _ => (Gives.pure hn).bind hr
    refine (gives_flowValue n _).bind fun r h => ?_
    have hw : Distinct (r.fst, r.snd.skipFiller) := h
    exact (Gives.pure hw).bind hr

end

mutual

theorem gives_node : ∀ free parent n p, Gives Distinct (readNode free parent n p)
  | _, _, 0, _ => .malformed
  | free, parent, n + 1, p => by
    rw [readNode]
    refine .ite (fun _ => .ite (fun _ => ?_) fun _ => .malformed) fun _ => .ite (fun _ => ?_) fun _ => ?_
    · exact (gives_entries n _ _ p).bind fun _ h => .pure (.list h)
    · refine (gives_name p).bind fun ⟨anchor, q⟩ _ => .name anchor _ ?_
      have hn : Distinct (.null, q) := .scalar .null
      exact .ite (fun _ => .pure hn) fun _ => gives_node _ _ n _
    · refine Gives.get.bind fun seen hs => (gives_atom parent n p).bind fun r h => .ite (fun _ => ?_) fun _ => .pure h
      refine .ite (fun _ => ?_) fun _ => .malformed
      refine (Gives.set hs).bind fun _ _ => (gives_pairs n p).bind fun _ h => .pure ?_
      exact keysDistinct_setAll keysDistinct_nil h

theorem gives_atom : ∀ parent n p, Gives Distinct (readAtom parent n p)
  | _, 0, _ => .malformed
  | parent, n + 1, p => by
    rw [readAtom]
    refine .ite (fun _ => gives_flow n p) fun _ => .ite (fun _ => ?_) fun _ => .ite (fun _ => ?_) fun _ => ?_
    · exact (gives_name p).bind fun r _ => (Gives.lookUp r.1).bind fun _ hv => .pure hv
    · refine (gives_name p).bind fun ⟨anchor, q⟩ _ => .ite (fun _ => .malformed) fun _ => .name anchor _ ?_
      have hn : Distinct (.null, q) := .scalar .null
      exact .ite (fun _ => gives_atom _ n _) fun _ => .pure hn
    · exact gives_scalar _ _ p

theorem gives_pairs : ∀ n p, Gives MembersDistinct (readPairs n p)
  | 0, _ => .malformed
  | n + 1, p => by
    rw [readPairs]
    refine (gives_atom _ n p).bind fun ⟨v, q⟩ _ => (Gives.wellFormed fun _ _ => trivial).bind fun k _ => ?_
    extract_lets colon
    refine .ite (fun _ => .malformed) fun _ => (gives_member n _ _).bind fun r h => ?_
    have hs : MembersDistinct ([(k, r.fst)], r.snd) := List.forall_mem_singleton.mpr h
    refine .ite (fun _ => .pure hs) fun _ => .ite (fun _ => .malformed) fun _ => ?_
    exact (gives_pairs n _).bind fun _ hm => .pure (List.forall_mem_cons.mpr ⟨h, hm⟩)

theorem gives_member : ∀ n column p, Gives Distinct (readMember n column p)
  | 0, _, _ => .malformed
  | n + 1, column, p => by
    rw [readMember]
    refine .ite (fun _ => .pure (.scalar .null)) fun _ => ?_
    refine .ite (fun _ => .ite (fun _ => ?_) fun _ => gives_node _ _ n _) fun _ => ?_
    · exact (gives_name _).bind fun r _ => .name r.1 _ (gives_member n column r.2)
    · refine .ite (fun _ => gives_node _ _ n _) fun _ => .ite (fun _ => ?_) fun _ => .pure (.scalar .null)
      exact (gives_entries n _ _ _).bind fun _ h => .pure (.list h)

theorem gives_entries : ∀ n column underKey p, Gives AllDistinct (readEntries n column underKey p)
  | 0, _, _, _ => .malformed
  | n + 1, column, underKey, p => by
    unfold readEntries
    extract_lets q rest
    have hr : ∀ r, Distinct r → Gives AllDistinct (rest r) := by
      intro r h
      have hs : AllDistinct ([r.fst], r.snd) := List.forall_mem_singleton.mpr h
      refine .ite (fun _ => .pure hs) fun _ => .ite (fun _ => .malformed) fun _ => ?_
      refine .ite (fun _ => ?_) fun _ => .ite (fun _ => .pure hs) fun _ => .malformed
      exact (gives_entries n _ _ _).bind fun _ hm => .pure (List.forall_mem_cons.mpr ⟨h, hm⟩)
    have hn (q : Cursor) : Distinct (.null, q) := .scalar .null
    refine .ite (fun _ => (Gives.pure (hn q)).bind hr) fun _ => ?_
    refine .ite (fun _ => ?_) fun _ => (Gives.pure (hn _)).bind hr
    exact (gives_node _ _ n _).bind hr

end

theorem gives_document (t : Text) : Gives Value.KeysDistinct (readDocument t) := by
  unfold readDocument
  extract_lets fuel p q free
  refine .ite (fun _ => .pure (.scalar .null)) fun _ => ?_
  refine .ite (fun _ => .ite (fun _ => .pure (.scalar .null)) fun _ => .malformed) fun _ => ?_
  refine .ite (fun _ => .malformed) fun _ => (gives_node _ _ _ _).bind fun _ h => ?_
  exact .ite (fun _ => .pure h) fun _ => .malformed

theorem Seen.eq_of_check {seen : Seen} {v w : Value} (h : seen.check v = .ok w) : v = w := by
  rw [check] at h
  split at h
  case h_1 => contradiction
  case h_2 =>
    split at h
    case isTrue  => contradiction
    case isFalse => exact Except.ok.inj h

theorem keysDistinct_of_readText {t : Text} {v : Value} (h : readText t = .ok v) : v.KeysDistinct := by
  unfold readText at h
  generalize (if t.head? == some '\ufeff' then t.drop 1 else t) = document at h
  split at h
  case isTrue => contradiction
  case isFalse =>
    have h : (readDocument document {} >>= fun r => r.2.check r.1) = .ok v := h
    cases hd : readDocument document {} <;> rw [hd] at h
    case error => contradiction
    case ok r =>
      rw [← Seen.eq_of_check h]
      exact (gives_document document {} r.1 r.2 nofun hd).left

theorem keysDistinct_of_read {bytes : List UInt8} {v : Value} (h : read bytes = .ok v) : v.KeysDistinct := by
  rw [read] at h
  split at h
  case h_1 => contradiction
  case h_2 => exact keysDistinct_of_readText h

end GherkinView.Yaml
