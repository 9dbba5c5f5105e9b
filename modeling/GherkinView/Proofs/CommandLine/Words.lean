import Mathlib.Data.List.TakeWhile
import GherkinView.CommandLine.Words
import GherkinView.Proofs.Libraries

namespace GherkinView.CommandLine

variable {kinds : List OptionKind} {k : OptionKind} {w v : Text} {rest : List Text} {ws : Words}

theorem find?_name (hd : AreDistinct kinds) (hk : k ∈ kinds) : kinds.find? (·.name == k.name) = some k := by
  have hn := hd.names
  clear hd
  induction kinds
  case nil => contradiction
  case cons j kinds hi =>
    have ⟨hj, hn⟩ := List.nodup_cons.mp hn
    obtain rfl | hk := List.mem_cons.mp hk
    case inl => exact List.find?_cons_of_pos (BEq.refl _)
    case inr =>
      have he : (j.name == k.name) = false :=
        beq_eq_false_iff_ne.mpr fun he => hj (he ▸ List.mem_map_of_mem hk)
      rw [List.find?_cons, he]
      exact hi hk hn

theorem readOptions?_word (hd : AreDistinct kinds) (hk : k ∈ kinds) : readOptions? kinds k.word =
    some (some (if k.takesValue then { open? := some k.name } else { complete := [⟨k.name, []⟩] })) := by
  have ⟨_, he⟩ := hd.named hk
  have hp : ∀ c ∈ k.name, (c != '=') = true := fun c hc => bne_iff_ne.mpr fun h => he (h ▸ hc)
  have ht : k.name.takeWhile (· != '=') = k.name := List.takeWhile_eq_self_iff.mpr hp
  have hw : k.name.dropWhile (· != '=') = [] := List.dropWhile_eq_nil_iff.mpr hp
  rw [OptionKind.word, readOptions?, readNamed?, ht, find?_name hd hk, hw]
  cases hv : k.takesValue <;> simp [hv]

theorem word_ne (hd : AreDistinct kinds) (hk : k ∈ kinds) : k.word ≠ ['-', '-'] := by
  intro h
  have hn : k.name = [] := List.cons.inj (List.cons.inj h).right |>.right
  exact (hd.named hk).left hn

theorem readWords?_flag (hd : AreDistinct kinds) (hk : k ∈ kinds) (hv : k.takesValue = false)
    (h : readWords? kinds true rest = some ws) :
    readWords? kinds true (k.word :: rest) = some (ws.add [⟨k.name, []⟩]) := by
  have ho := readOptions?_word hd hk
  rw [hv, if_neg Bool.false_ne_true] at ho
  rw [readWords?.eq_def]
  simp only [if_neg (word_ne hd hk), ho, h, Option.map_some]

theorem readWords?_valued (hd : AreDistinct kinds) (hk : k ∈ kinds) (hv : k.takesValue = true)
    (h : readWords? kinds true rest = some ws) :
    readWords? kinds true (k.word :: v :: rest) = some (ws.add [⟨k.name, v⟩]) := by
  have ho := readOptions?_word hd hk
  rw [hv, if_pos rfl] at ho
  rw [readWords?.eq_def]
  simp only [if_neg (word_ne hd hk), ho, h, Option.map_some, List.nil_append]

theorem readOptions?_of_head?_ne (h : w.head? ≠ some '-') : readOptions? kinds w = some none := by
  rw [readOptions?.eq_def]
  split
  case h_1 => simp at h
  case h_2 => simp at h
  case h_3 => rfl

theorem readWords?_other (hw : w.head? ≠ some '-') (h : readWords? kinds true rest = some ws) :
    readWords? kinds true (w :: rest) = some { ws with others := w :: ws.others } := by
  have hn : w ≠ ['-', '-'] := fun he => hw (he ▸ rfl)
  rw [readWords?.eq_def]
  simp only [if_neg hn, readOptions?_of_head?_ne hw, h, Option.map_some]
  rfl

theorem readWords?_command (h : w.head? ≠ some '-') :
    readWords? kinds false (w :: rest) = some { others := w :: rest } := by
  have hn : w ≠ ['-', '-'] := fun he => h (he ▸ rfl)
  rw [readWords?.eq_def]
  simp only [if_neg hn, readOptions?_of_head?_ne h]
  rfl

theorem readWords?_closed (kinds : List OptionKind) (mixed : Bool) (rest : List Text) :
    readWords? kinds mixed (['-', '-'] :: rest) = some { others := rest } := by
  rw [readWords?.eq_def]
  rfl

end GherkinView.CommandLine
