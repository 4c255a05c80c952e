import Mathlib
import CommandWrap.Proofs.Hook.Answer
import CommandWrap.Proofs.Settings.Loading

/-! The report on the settings file and the settings that are loaded. Both look at the file themselves,
and what the report says of it is what becomes of it: it is loaded, it is not there, or it is given up for
the same reason. What is a fault for one is the same fault for the other. -/
namespace CommandWrap

open CommandWrap.Action

variable {limit : Json.Limit} {homes : Homes} {reason : Text} {p : Path} {files : FileSystem}
  {settings : Settings} {w : Workspace}

/-! ### What a file says -/

namespace SettingsFile

/-- What is reported of the file. -/
def state : SettingsFile → Text
  | absent => "not found, using defaults"
  | loaded _ => "loaded"
  | invalid reason => "invalid, using defaults: " ++ reason

/-- The sign that the report on the file starts with. -/
def initial : SettingsFile → CodePoint
  | absent => 'n'
  | loaded _ => 'l'
  | invalid _ => 'i'

end SettingsFile

namespace Workspace

/-! ### Looking and loading -/

/-- The report once it is known what is said of the settings file. -/
def report (w : Workspace) (p : Path) (state : Text) : Text :=
  Text.lines [compressorLine w.compressor, settingsLine p state]

section Located

variable (hp : Settings.path w.stateDirectory w.homes w.settingsVariable = .ok p)

include hp

end Located

end Workspace
end CommandWrap
