import GherkinView.CommandLine.Session
import GherkinView.Proofs.Journal.Calls
import GherkinView.Proofs.Journal.LogFiles
import GherkinView.Proofs.Settings.Loading

namespace GherkinView

open File Settings

namespace CommandLine

-- If it fails, then with an error that is told of.
def FailsTold {α} (x : Except Error α) : Prop :=
  ∀ e, x = .error e → isTold e = true

theorem FailsTold.ok {α} (a : α) : FailsTold (.ok a) :=
  nofun

end CommandLine

open CommandLine

namespace Settings

section Files

variable {s : Settings} {t : Tree} {p : Path} {e : Error} {es : Entries}

end Files

section Loading

variable [Libraries] {s : Settings} {t : Tree} {p : Path} {e : Error} {es : Entries}

end Loading

end Settings

namespace Journal

variable {d : Desk} {name : Text}

-- Nothing has been set up, so that what is told is shown bare, or not at all, whatever the tree is.
theorem tell_fresh (hd : d.channels = {}) (r : Record) :
    ∃ shown, ∀ t : Tree, { d with tree := t }.tell r = { d with tree := t, shown } := by
  have hc (name : Text) : (({} : Channels).get name).handlers = [] := by
    rw [Channels.get]
    split <;> rfl
  have hh : Channels.handlersOf (d.channels.chain r.channel) = [] := by
    refine List.eq_nil_iff_forall_not_mem.mpr fun h hm => ?_
    obtain ⟨c, hm, hh⟩ := Channels.mem_handlersOf hm
    obtain ⟨name, rfl⟩ := Channels.exists_name_of_mem_chain hm
    have hn : (d.channels.get name).handlers = [] := hd ▸ hc name
    rw [hn] at hh
    contradiction
  simp only [Desk.tell, hh]
  split
  case isFalse => exact ⟨d.shown, fun _ => rfl⟩
  case isTrue  => split <;> exact ⟨_, fun _ => rfl⟩

theorem tellAll_fresh (hd : d.channels = {}) (rs : List Record) :
    ∃ shown, ∀ t : Tree, { d with tree := t }.tellAll rs = { d with tree := t, shown } := by
  induction rs generalizing d
  case nil => exact ⟨d.shown, fun _ => rfl⟩
  case cons r rs hi =>
    have ⟨shown, hr⟩ := tell_fresh hd r
    have ⟨shown', hs⟩ := hi (d := { d with shown }) hd
    refine ⟨shown', fun t => ?_⟩
    rw [Desk.tellAll, List.foldl_cons, hr]
    exact hs t

end Journal

namespace CommandLine

variable {settings : Settings} {d : Journal.Desk}

-- The files of settings, with those of one environment.
def settingsFiles (main environment : List UInt8) : Tree where
  entries := [
    (["config".toList], .directory (.fresh 1)),
    (["config".toList, "config.yaml".toList], .file main (.fresh 2)),
    (["config".toList, "environments".toList], .directory (.fresh 3)),
    (["config".toList, "environments".toList, "dev.yaml".toList], .file environment (.fresh 4))]

section

open Standard

-- The main file is not well formed, and the other one, whose bytes are no text, is not looked at.
def unclosed : Tree :=
  settingsFiles (File.Utf8.encode "output: [".toList) [255]

end

end CommandLine
end GherkinView
