import GherkinView.Proofs.Settings.Loading

namespace GherkinView.Settings

open File

-- How far the settings have come when a load fails.
inductive LeavesOff [Libraries] (s : Settings) (t : Tree) : Entries → Prop
  | main {r e} : s.readVariables t = .ok r → s.readMain t = .error e → LeavesOff s t defaults
  | upper {r main e} : s.readVariables t = .ok r → s.readMain t = .ok main → s.readUpper t = .error e →
    LeavesOff s t (plainEntries (merge defaults main))

section Keys

variable {es es' : Entries}

end Keys

section

variable [Libraries] {s : Settings} {t : Tree} {es es' : Entries}

theorem LeavesOff.inj (h : s.LeavesOff t es) (h' : s.LeavesOff t es') : es = es' := by
  cases h <;> cases h' <;> simp_all

end

namespace Reloaded

open Standard

def filesWith (mainText environment : Text) (bytes : List UInt8) : Tree where
  entries := [
    (["config.yaml".toList], .file (Utf8.encode mainText) (.fresh 1)),
    (["environments".toList], .directory (.fresh 2)),
    (["environments".toList, "dev.yaml".toList], .file (Utf8.encode environment) (.fresh 3)),
    ([".env".toList], .file bytes (.fresh 4))]

def mainFile : Text := "output: \x7bdirectory: '$\x7bOUT\x7d'\x7d".toList

def unclosed : Text := "output: [".toList

def loaded : Settings :=
  (load ⟨Path.ofText "config.yaml".toList, some "dev".toList, none, [("OUT".toList, "built".toList)], []⟩
    (filesWith mainFile [] [])).settings

-- The main file has been broken since.
def broken : Settings :=
  (loaded.load (filesWith unclosed [] [])).settings

end Reloaded

end GherkinView.Settings
