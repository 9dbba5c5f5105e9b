import GherkinView.Proofs.CommandLine.Words
import GherkinView.Proofs.Settings.VariableFile
import GherkinView.Proofs.Yaml.Keys
import GherkinView.Standard

namespace GherkinView.Standard

theorem readsDistinct : Libraries.ReadsDistinct :=
  fun _ _ => Yaml.keysDistinct_of_read

theorem keepsVariables : Libraries.KeepsVariables := by
  intro vs t name value h
  have hg := Settings.Variables.get?_load vs (.ofText t) name
  rwa [h, Option.some_or] at hg

theorem readsOptions : Libraries.ReadsOptions where
  nil _ _            := CommandLine.readWords?.eq_1 _ _
  flag hd hk hv      := CommandLine.readWords?_flag hd hk hv
  valued hd hk hv _  := CommandLine.readWords?_valued hd hk hv
  other              := CommandLine.readWords?_other
  command            := CommandLine.readWords?_command
  closed             := CommandLine.readWords?_closed

end GherkinView.Standard
