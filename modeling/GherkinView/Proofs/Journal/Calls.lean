import Mathlib.Data.Option.Basic
import GherkinView.Journal.Channels

namespace GherkinView.Journal

open File File.Tree

-- A call that sets up a channel, and the tree that it finds.
structure Call where
  level : Option Text
  file : Option Text
  tree : Tree

namespace Call

def levelName? (c : Call) : Option Text :=
  c.level.filter (!·.isEmpty)

-- The level is not refused, if one is given.
def isAccepted (c : Call) : Bool :=
  c.levelName?.all fun name => (levelNamed name).toOption.isSome

def level? (c : Call) : Option Level :=
  c.levelName?.bind fun name => (levelNamed name).toOption

-- The file that the call can open. It does not get there if the level is refused.
def file? (c : Call) : Option Location := do
  if !c.isAccepted then none
  let name ← c.file.filter (!·.isEmpty)
  let (_, l) ← (c.tree.openLog (logPath c.tree (.ofText name))).toOption
  return l

end Call

-- What the calls to a channel make of it.
structure Channel.IsAfter (c start : Channel) (calls : List Call) : Prop where
  handlers : c.handlers = if calls.any Call.isAccepted then
    .console :: (calls.findSome? Call.file?).toList.map .file else []
  propagates : c.propagates = if calls.any Call.isAccepted then false else start.propagates
  level : c.level = (calls.filterMap Call.level?).getLast?.getD
    (if calls.any Call.isAccepted then .info else start.level)

-- A file for a channel that has none.
def Channel.withFile (c : Channel) (l? : Option Location) : Channel :=
  if c.hasFile then c else { c with handlers := c.handlers ++ l?.toList.map .file }

-- What one call makes of its channel.
def Channel.after (c : Channel) (call : Call) : Channel :=
  if call.isAccepted then
    ({ c with level := call.level?.getD c.level }.attach call.levelName?.isSome).withFile call.file?
  else c

section Calls

variable {c start : Channel} {name : Text} {call : Call} {calls : List Call}

theorem lookup_filter_bne {ncs : List (Text × Channel)} {name name' : Text} (h : name ≠ name') :
    (ncs.filter (·.1 != name')).lookup name = ncs.lookup name := by
  induction ncs
  case nil => rfl
  case cons nc ncs hi =>
    have ⟨n, c⟩ := nc
    by_cases hn : n = name'
    case pos => simp [hn, hi, List.lookup_cons, beq_false_of_ne h]
    case neg => simp [hn, hi, List.lookup_cons]

namespace Channels

theorem title_of_isRoot (h : isRoot name = true) : title name = "root".toList :=
  if_pos h

theorem title_of_not_isRoot (h : isRoot name = false) : title name = name :=
  if_neg (Bool.eq_false_iff.mp h)

theorem title_ne_of_not_isRoot (h : isRoot name = false) : title name ≠ "root".toList := by
  intro ht
  rw [title_of_not_isRoot h] at ht
  rw [ht] at h
  contradiction

-- Names with the same title are those of one channel.
theorem get_congr (cs : Channels) {name name' : Text} (h : title name = title name') :
    cs.get name = cs.get name' := by
  cases hn : isRoot name <;> cases hn' : isRoot name'
  case false.false => rw [← title_of_not_isRoot hn, h, title_of_not_isRoot hn']
  case false.true  => exact absurd (h.trans (title_of_isRoot hn')) (title_ne_of_not_isRoot hn)
  case true.false  =>
    exact absurd (h.symm.trans (title_of_isRoot hn)) (title_ne_of_not_isRoot hn')
  case true.true   => rw [get, get, if_pos hn, if_pos hn']

theorem get_set (cs : Channels) (name name' : Text) (c : Channel) :
    (cs.set name' c).get name = if title name = title name' then c else cs.get name := by
  unfold get set
  cases hn : isRoot name <;> cases hn' : isRoot name'
  case false.false =>
    rw [title_of_not_isRoot hn, title_of_not_isRoot hn']
    by_cases h : name = name'
    case pos => simp [h]
    case neg => simp [h, List.lookup_cons, beq_false_of_ne h, lookup_filter_bne h]
  case false.true =>
    rw [title_of_isRoot hn', if_neg (title_ne_of_not_isRoot hn)]
    rfl
  case true.false =>
    rw [title_of_isRoot hn, if_neg (title_ne_of_not_isRoot hn').symm]
    rfl
  case true.true =>
    rw [title_of_isRoot hn, title_of_isRoot hn', if_pos rfl]
    rfl

theorem set_set (cs : Channels) (name : Text) (c c' : Channel) :
    (cs.set name c).set name c' = cs.set name c' := by
  unfold set
  split <;> simp

theorem length_lt_of_mem_above {p : Text} (h : p ∈ above name) : p.length < name.length := by
  have hs (t : Text) (h : p ∈ above.search t) : p.length < t.length := by
    fun_induction above.search t
    case case1 c r hi =>
      obtain rfl | h := List.mem_cons.mp h
      · simp
      · have := hi h
        simp only [List.length_cons]
        omega
    case case2 c r _ hi =>
      have := hi h
      simp only [List.length_cons]
      omega
    case case3 => contradiction
  have hl := hs _ h
  rwa [List.length_reverse] at hl

-- Names are below shorter ones.
def IsOrdered (cs : Channels) : Prop :=
  ∀ e ∈ cs.parents, e.2.length < e.1.length

theorem IsOrdered.length_parent_lt {cs : Channels} (h : cs.IsOrdered) (hn : name ≠ []) :
    (cs.parent name).length < name.length := by
  rw [parent]
  cases hp : cs.parents.lookup name
  case some p =>
    have ⟨_, _, he, _⟩ := List.lookup_eq_some_iff.mp hp
    exact h (name, p) (by simp [he])
  case none =>
    cases hf : (above name).find? cs.isKnown
    case none   => exact List.length_pos_iff.mpr hn
    case some p => exact length_lt_of_mem_above (List.mem_of_find?_eq_some hf)

theorem ne_nil_of_not_isRoot (h : isRoot name = false) : name ≠ [] := by
  rintro rfl
  contradiction

theorem IsOrdered.introduce {cs : Channels} (h : cs.IsOrdered) (name : Text) : (cs.introduce name).IsOrdered := by
  rw [Channels.introduce]
  split
  case isTrue => exact h
  case isFalse hn =>
    have hn : name ≠ [] := ne_nil_of_not_isRoot (Bool.eq_false_iff.mpr fun hr => hn (by rw [hr, Bool.true_or]))
    refine List.forall_mem_cons.mpr ⟨h.length_parent_lt hn, List.forall_mem_map.mpr fun ⟨child, p⟩ hm => ?_⟩
    dsimp only
    split
    case isFalse => exact h _ hm
    case isTrue ha =>
      have ha := (Bool.and_eq_true_iff.mp ha).left
      exact length_lt_of_mem_above (List.contains_iff_mem.mp ha)

theorem IsOrdered.set {cs : Channels} (h : cs.IsOrdered) (name : Text) (c : Channel) : (cs.set name c).IsOrdered := by
  rw [Channels.set]
  split <;> exact h

-- The channel comes first, then those above what its name is below.
theorem IsOrdered.chain_eq {cs : Channels} (h : cs.IsOrdered) (hn : isRoot name = false) :
    cs.chain name = cs.get name :: cs.chain (cs.parent name) := by
  have hc (n : Nat) : ∀ m name, name.length ≤ n → name.length ≤ m →
      chain.climb cs n name = chain.climb cs m name := by
    induction n
    case zero =>
      intro m name hn _
      obtain rfl := List.length_eq_zero_iff.mp (Nat.le_zero.mp hn)
      cases m <;> rfl
    case succ n hi =>
      intro m name hn hm
      cases m
      case zero =>
        obtain rfl := List.length_eq_zero_iff.mp (Nat.le_zero.mp hm)
        rfl
      case succ m =>
        rw [chain.climb, chain.climb]
        split
        case isTrue => rfl
        case isFalse hr =>
          have hp := h.length_parent_lt (ne_nil_of_not_isRoot (Bool.eq_false_iff.mpr hr))
          rw [hi m _ (by omega) (by omega)]
  have hp := h.length_parent_lt (ne_nil_of_not_isRoot hn)
  have he : cs.chain name = chain.climb cs ((name.length - 1) + 1) name := by
    rw [Nat.sub_add_cancel (by omega)]
    rfl
  rw [he, chain.climb, if_neg (Bool.eq_false_iff.mp hn), hc _ _ _ (by omega) (Nat.le_refl _)]
  rfl

@[simp]
theorem get_introduce (cs : Channels) (name name' : Text) : (cs.introduce name).get name' = cs.get name' := by
  rw [introduce]
  split <;> rfl

end Channels

theorem Call.file?_eq_none (h : call.isAccepted = false) : call.file? = none := by
  simp [file?, h]

theorem Call.level?_eq_none (h : call.isAccepted = false) : call.level? = none := by
  unfold isAccepted at h
  unfold level?
  cases hn : call.levelName?
  case none => rfl
  case some name => simpa [hn] using h

theorem Call.isSome_level?_eq (h : call.isAccepted = true) : call.level?.isSome = call.levelName?.isSome := by
  unfold isAccepted at h
  unfold level?
  cases hn : call.levelName?
  case none => rfl
  case some name => simpa [hn] using h

theorem Channel.attach_of_nil (h : c.handlers = []) (leveled : Bool) :
    c.attach leveled = ⟨if leveled then c.level else .info, [.console], false⟩ := by
  rw [attach, h, if_pos List.isEmpty_nil]

theorem Channel.attach_of_ne_nil (h : c.handlers ≠ []) (leveled : Bool) : c.attach leveled = c := by
  rw [attach, List.isEmpty_eq_false_iff.mpr h, if_neg Bool.false_ne_true]

theorem Channel.withFile_eq {l? l?' : Option Location} (h : c.handlers = .console :: l?.toList.map .file) :
    c.withFile l?' = { c with handlers := .console :: (l?.or l?').toList.map .file } := by
  obtain ⟨level, handlers, propagates⟩ := c
  obtain rfl : handlers = _ := h
  cases l? <;> rfl

theorem Call.mapM_of_isAccepted (h : call.isAccepted = true) :
    call.levelName?.mapM levelNamed = .ok call.level? := by
  unfold isAccepted at h
  unfold level?
  cases hn : call.levelName?
  case none => rfl
  case some name =>
    rw [hn, Option.all_some] at h
    cases hl : levelNamed name
    case error => simp [hl, Except.toOption] at h
    case ok l  => rw [Option.mapM_some, Option.bind_some, hl]; rfl

theorem Call.mapM_of_not_isAccepted (h : call.isAccepted = false) :
    ∃ e, call.levelName?.mapM levelNamed = .error e := by
  unfold isAccepted at h
  cases hn : call.levelName?
  case none => simp [hn] at h
  case some name =>
    rw [hn, Option.all_some] at h
    cases hl : levelNamed name
    case error e => exact ⟨e, by rw [Option.mapM_some, hl]; rfl⟩
    case ok l    => simp [hl, Except.toOption] at h

-- What opening the log comes to, if the call gets there.
theorem Call.file?_of_isAccepted (h : call.isAccepted = true) :
    call.file? = (call.file.filter (!·.isEmpty)).bind fun name =>
      (call.tree.openLog (logPath call.tree (.ofText name))).toOption.map (·.2) := by
  rw [file?, h]
  cases call.file.filter (!·.isEmpty)
  case none => rfl
  case some name =>
    cases h : call.tree.openLog (logPath call.tree (.ofText name)) <;> simp [h, Except.toOption]

theorem filter_hasFile (file : Option Text) (c : Channel) :
    (file.filter fun f => !f.isEmpty && !c.hasFile) =
      if c.hasFile then none else file.filter (!·.isEmpty) := by
  cases c.hasFile <;> simp

-- Setting up a channel. If the level is refused the name is known from then on, and nothing else happens. Otherwise
-- the channel is what the call makes of it, in one or two steps, and all that happens to the tree is that the log
-- file of the channel is opened.
theorem setUp_cases (d : Desk) (name : Text) (level file : Option Text) :
    let call : Call := ⟨level, file, d.tree⟩
    let c := (d.channels.get name).after call
    (call.isAccepted = false ∧ ∃ e, d.setUp name level file = (d.introduce name, some e)) ∨
      call.isAccepted = true ∧ ∃ t failure,
        d.setUp name level file =
          ({ d with channels := (d.channels.introduce name).set name c, tree := t }, failure) ∧
          (t = d.tree ∨ ∃ p l, d.tree.openLog p = .ok (t, l) ∧ .file l ∈ c.handlers) := by
  intro call c
  cases ha : call.isAccepted
  case false =>
    obtain ⟨e, he⟩ := Call.mapM_of_not_isAccepted ha
    dsimp only [Call.levelName?, call] at he
    refine .inl ⟨rfl, e, ?_⟩
    rw [Desk.setUp, Desk.configure]
    dsimp only
    rw [he]
  case true =>
    have hm := Call.mapM_of_isAccepted ha
    have hf := Call.file?_of_isAccepted ha
    refine .inr ⟨rfl, ?_⟩
    unfold c
    rw [Channel.after, if_pos ha, hf, Desk.setUp, Desk.configure]
    dsimp only [Call.levelName?, call, Desk.introduce] at hm ⊢
    rw [hm, Channels.get_introduce]
    dsimp only
    generalize Channel.attach _ _ = c
    rw [filter_hasFile, Channel.withFile]
    cases c.hasFile
    case true  => exact ⟨_, _, rfl, .inl rfl⟩
    case false =>
      cases file.filter (!·.isEmpty)
      case none   => exact ⟨_, none, by simp, .inl rfl⟩
      case some f =>
        cases ho : d.tree.openLog (logPath d.tree (.ofText f))
        case error e => exact ⟨_, some e, by simp [ho, Except.toOption], .inl rfl⟩
        case ok opened =>
          obtain ⟨t, l⟩ := opened
          refine ⟨t, none, ?_, .inr ⟨_, l, ho, ?_⟩⟩
          case refine_1 => simp [ho, Except.toOption, Channels.set_set]
          case refine_2 => simp [ho, Except.toOption]

-- Only the channel of that name is set up.
theorem get_setUp (d : Desk) (name name' : Text) (level file : Option Text) :
    (d.setUp name' level file).1.channels.get name =
      if Channels.title name = Channels.title name' then (d.channels.get name).after ⟨level, file, d.tree⟩
      else d.channels.get name := by
  obtain ⟨ha, e, he⟩ | ⟨_, t, failure, he, _⟩ := setUp_cases d name' level file <;> rw [he]
  case inl =>
    rw [Channel.after, ha, if_neg Bool.false_ne_true, ite_self]
    exact Channels.get_introduce _ _ _
  case inr =>
    rw [Channels.get_set, Channels.get_introduce]
    split
    case isTrue ht => rw [d.channels.get_congr ht]
    case isFalse   => rfl

namespace Channel.IsAfter

theorem of_nil (h : c.handlers = []) : c.IsAfter c [] :=
  ⟨h, rfl, rfl⟩

theorem getLast?_level? (calls : List Call) (call : Call) :
    ((calls ++ [call]).filterMap Call.level?).getLast? =
      call.level?.or (calls.filterMap Call.level?).getLast? := by
  rw [List.filterMap_append, List.getLast?_append]
  cases hl : call.level? <;> simp [hl]

theorem findSome?_file?_eq_none (hn : calls.any Call.isAccepted = false) :
    calls.findSome? Call.file? = none := by
  refine List.findSome?_eq_none_iff.mpr fun call hm => Call.file?_eq_none ?_
  simpa using List.any_eq_false.mp hn call hm

-- Before it sees to the file, an accepted call has set the level, and there is a console.
theorem attach_eq (h : c.IsAfter start calls) (ha : call.isAccepted = true) :
    { c with level := call.level?.getD c.level }.attach call.levelName?.isSome =
      ⟨((calls ++ [call]).filterMap Call.level?).getLast?.getD .info,
        .console :: (calls.findSome? Call.file?).toList.map .file, false⟩ := by
  have ⟨hc, hp, hl⟩ := h
  rw [getLast?_level?, ← Call.isSome_level?_eq ha]
  cases hn : calls.any Call.isAccepted <;> simp only [hn, if_true, Bool.false_eq_true, if_false] at hc hp hl
  case true =>
    rw [attach_of_ne_nil (by simp [hc]), hc, hp, hl]
    cases call.level? <;> rfl
  case false =>
    have hs : calls.filterMap Call.level? = [] := by
      refine List.filterMap_eq_nil_iff.mpr fun call hm => Call.level?_eq_none ?_
      simpa using List.any_eq_false.mp hn call hm
    rw [attach_of_nil (by exact hc), findSome?_file?_eq_none hn, hs]
    cases call.level? <;> rfl

theorem step (h : c.IsAfter start calls) (call : Call) :
    (c.after call).IsAfter start (calls ++ [call]) := by
  cases ha : call.isAccepted
  case false =>
    have hf := Call.file?_eq_none ha
    have hl := Call.level?_eq_none ha
    rw [after, if_neg (by simp [ha])]
    refine ⟨?_, ?_, ?_⟩
    case refine_1 => simp [h.handlers, ha, List.findSome?_append, hf]
    case refine_2 => simp [h.propagates, ha]
    case refine_3 => simp [h.level, ha, hl]
  case true =>
    have hn : (calls ++ [call]).any Call.isAccepted = true := by simp [ha]
    rw [after, if_pos ha, h.attach_eq ha, withFile_eq rfl]
    refine ⟨?_, ?_, ?_⟩
    case refine_1 =>
      rw [hn, if_pos rfl, List.findSome?_append]
      cases hf : call.file? <;> simp [hf]
    case refine_2 => rw [hn, if_pos rfl]
    case refine_3 => rw [hn, if_pos rfl]

end Channel.IsAfter
end Calls

end GherkinView.Journal
