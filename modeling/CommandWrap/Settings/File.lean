import CommandWrap.FileSystem.TextFile

/-! Where the settings are kept, and what the file says. -/
namespace CommandWrap

/-- Where the settings are: in the file that the variable names, or else in the state directory. A
tilde needs a home. -/
def Settings.path (stateDirectory : Path) (homes : Homes) (named : Option Text) :
    Except HomeError Path :=
  match named.getD [] with
  | [] => .ok (stateDirectory.child "config.json")
  | t => (Path.ofText t).expandHome homes

/-- What a settings file says. -/
inductive SettingsFile
  | absent
  | loaded (settings : Settings)
  | invalid (reason : Text)

namespace SettingsFile

/-- The settings in a file. Contents that are no settings are a reason not to use them; contents that
nest too deep, or that need a home nobody knows, are an error. -/
def read (limit : Json.Limit) (homes : Homes) (p : Path) (files : FileSystem) :
    Except Fault SettingsFile := do
  if ← (files.isFile p).mapError Fault.file then
    let contents := (files.readText p).bind fun text =>
      (Settings.parse limit homes text).mapError Fault.settings
    match contents with
    | .ok settings => return loaded settings
    | .error fault => if fault.isBadSettings then return invalid fault.message else throw fault
  else return absent

/-- The settings to use: the defaults if the file has none. -/
def settings : SettingsFile → Settings
  | loaded settings => settings
  | _ => {}

end SettingsFile

end CommandWrap
