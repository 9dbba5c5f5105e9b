import GherkinView.CommandLine.Options

-- How the words of a command line are told apart. Letters may share a dash. An option with a value takes what
-- follows in its word, or else the next word, whatever that is. Two dashes alone end the options.

namespace GherkinView.CommandLine

-- What a word says: options without a value, and then one with it, or one that still needs it.
structure WordOptions where
  complete : List Given := []
  open? : Option Text := none

def readNamed? (kinds : List OptionKind) (t : Text) : Option WordOptions := do
  let k ← kinds.find? (·.name == t.takeWhile (· != '='))
  match t.dropWhile (· != '='), k.takesValue with
  | _ :: value, true => return { complete := [⟨k.name, value⟩] }
  | _ :: _, false => none
  | [], true => return { open? := some k.name }
  | [], false => return { complete := [⟨k.name, []⟩] }

def readLetters? (kinds : List OptionKind) : Text → Option WordOptions
  | [] => some {}
  | c :: r => do
    let k ← kinds.find? (·.letter == some c)
    if !k.takesValue then
      let o ← readLetters? kinds r
      return { o with complete := ⟨k.name, []⟩ :: o.complete }
    else if r.isEmpty then return { open? := some k.name }
    else return { complete := [⟨k.name, r⟩] }

-- A dash alone is no option.
def readOptions? (kinds : List OptionKind) (word : Text) : Option (Option WordOptions) :=
  match word with
  | '-' :: '-' :: r => (readNamed? kinds r).map some
  | '-' :: c :: r => (readLetters? kinds (c :: r)).map some
  | _ => some none

-- Unless options may be `mixed` with other words, they end at the first of these.
def readWords? (kinds : List OptionKind) (mixed : Bool) : List Text → Option Words
  | [] => some {}
  | w :: ws =>
    if w = ['-', '-'] then some { others := ws }
    else
      match readOptions? kinds w, ws with
      | none, _ => none
      | some none, ws =>
        if mixed then (readWords? kinds mixed ws).map fun rest => { rest with others := w :: rest.others }
        else some { others := w :: ws }
      | some (some ⟨complete, none⟩), ws => (readWords? kinds mixed ws).map (·.add complete)
      | some (some ⟨complete, some name⟩), value :: ws =>
        (readWords? kinds mixed ws).map (·.add (complete ++ [⟨name, value⟩]))
      | some (some ⟨_, some _⟩), [] => none

end GherkinView.CommandLine
