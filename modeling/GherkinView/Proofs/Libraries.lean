import GherkinView.Libraries
import GherkinView.Proofs.Settings.Entries
import GherkinView.Text.Style

-- What the program takes for granted of the libraries.

namespace GherkinView

open CommandLine Settings

-- No option can be taken for another one.
structure CommandLine.AreDistinct (kinds : List OptionKind) : Prop where
  names : (kinds.map OptionKind.name).Nodup
  named {k} : k ∈ kinds → k.name ≠ [] ∧ '=' ∉ k.name

def CommandLine.OptionKind.word (k : OptionKind) : Text :=
  '-' :: '-' :: k.name

namespace Libraries

variable [Libraries]

-- Mappings in a file have each of their keys once.
def ReadsDistinct : Prop :=
  ∀ bytes v, readSettings bytes = .ok v → v.KeysDistinct

-- Variables that are set stay as they are.
def KeepsVariables : Prop :=
  ∀ (vs : Variables) t name value, vs.get? name = some value → (loadVariables vs t).1.get? name = some value

-- Options are told by their names behind two dashes, and an option with a value takes the next word. A word that does
-- not start with a dash is no option, nor is any word behind two dashes.
structure ReadsOptions : Prop where
  nil (kinds : List OptionKind) (mixed : Bool) : readWords? kinds mixed [] = some {}
  flag {kinds : List OptionKind} {k : OptionKind} {rest : List Text} {ws : Words} (hd : AreDistinct kinds)
    (hk : k ∈ kinds) (hv : k.takesValue = false) (h : readWords? kinds true rest = some ws) :
    readWords? kinds true (k.word :: rest) = some (ws.add [⟨k.name, []⟩])
  valued {kinds : List OptionKind} {k : OptionKind} {rest : List Text} {ws : Words} (hd : AreDistinct kinds)
    (hk : k ∈ kinds) (hv : k.takesValue = true) (v : Text) (h : readWords? kinds true rest = some ws) :
    readWords? kinds true (k.word :: v :: rest) = some (ws.add [⟨k.name, v⟩])
  other {kinds : List OptionKind} {w : Text} {rest : List Text} {ws : Words} (hw : w.head? ≠ some '-')
    (h : readWords? kinds true rest = some ws) :
    readWords? kinds true (w :: rest) = some { ws with others := w :: ws.others }
  command {kinds : List OptionKind} {w : Text} {rest : List Text} (hw : w.head? ≠ some '-') :
    readWords? kinds false (w :: rest) = some { others := w :: rest }
  closed (kinds : List OptionKind) (mixed : Bool) (rest : List Text) :
    readWords? kinds mixed (['-', '-'] :: rest) = some { others := rest }

end Libraries
end GherkinView
