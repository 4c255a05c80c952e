import CommandWrap.CommandLine
import Std.Time.DateTime.Timestamp

/-!
The program. It takes a picture of the files that a run may look at, runs on that, and puts the changes
back: files only grow, so what was added is appended.
-/
namespace CommandWrap.Main

/-! ### The picture -/

def namesOf (path : String) : Place := Path.partsOf (Text.ofString path)

def absolute (place : Place) : String := "/" ++ (Text.join "/" place).toString

def microsOf (time : IO.FS.SystemTime) : Int := 1000000 * time.sec + time.nsec.toNat / 1000

/-- Adds what stands at a place, if there is something. -/
def addItem (files : FileSystem) (place : Place) : IO FileSystem := do
  let path := (← IO.currentDir) / absolute place
  if !(← path.pathExists) then return files
  let modified := microsOf (← path.metadata).modified
  if ← path.isDir then return files.put place ⟨.directory, modified⟩
  else return files.put place ⟨.file (← IO.FS.readBinFile path).toList, modified⟩

/-- Adds what stands at a path and on the way there. -/
def addPath (files : FileSystem) (p : Path) : IO FileSystem := do
  let place := files.start p ++ p.parts
  (List.range place.length).foldlM (fun files n => addItem files (place.take (n + 1))) files

/-- Adds a directory with what stands in it. -/
def addDirectory (files : FileSystem) (p : Path) : IO FileSystem := do
  let files ← addPath files p
  let path := (← IO.currentDir) / absolute (files.start p ++ p.parts)
  if !(← path.isDir) then return files
  (← path.readDir).toList.foldlM
    (fun files entry => addPath files (p.child (Text.ofString entry.fileName))) files

/-- The log that the settings name. -/
def logPath? (w : Workspace) : Option Path :=
  match (do Workspace.settingsFile (← Workspace.settingsPath) : Action SettingsFile).run.run w with
  | (.ok file, _) => file.settings.log
  | _ => none

/-! ### The surroundings -/

/-- The start of 1970 in microseconds after the start of year 1. -/
def epoch : Int := 719162 * Stamp.microsPerDay

def now : IO Stamp := do
  let nanos := (← Std.Time.Timestamp.now).toNanosecondsSinceUnixEpoch
  return .ofInstant (epoch + nanos.val / 1000).toNat

/-- The compressor in the first directory that has it. Its version is not asked for. -/
def findCompressor (directories : List Text) : IO (Option Compressor) :=
  directories.findSomeM? fun directory => do
    let path := directory ++ "/" ++ Rewriting.compressor
    let found ← ((← IO.currentDir) / path.toString).pathExists
    return if found then some ⟨path, none⟩ else none

def environment? (name : String) : IO (Option Text) := do
  return (← IO.getEnv name).map Text.ofString

def workspace : IO Workspace := do
  let homes : Homes := { own := (← environment? "HOME").getD "/" }
  let stateDirectory := (Path.ofText homes.own).child ".rtk-hook"
  let named ← environment? "RTK_HOOK_CONFIG"
  let directories := Text.splitOn ':' ((← environment? "PATH").getD [])
  let place := namesOf (← IO.currentDir).toString
  let empty : FileSystem := { current := place }
  let files ← addDirectory (← addPath empty ⟨0, []⟩) (stateDirectory.child "sessions")
  let files ← match Settings.path stateDirectory homes named with
    | .ok p => addPath files p
    | .error _ => pure files
  let w : Workspace :=
    { files := files
      homes := homes
      stateDirectory := stateDirectory
      now := ← now
      settingsVariable := named
      compressor := ← findCompressor (directories.filter (· ≠ [])) }
  match logPath? w with
  | some p => return { w with files := ← addPath w.files p }
  | none => return w

/-! ### The changes -/

/-- Puts one item back: a new directory is made, and a file gets what was added to it. -/
def putBack (before : FileSystem) (place : Place) (item : Item) : IO Unit := do
  let path := (← IO.currentDir) / absolute place
  match item.content, before.content? place with
  | .directory, none => IO.FS.createDir path
  | .file bytes, old =>
    let kept := match old with
      | some (.file bytes) => bytes.length
      | _ => 0
    if old.isNone || kept < bytes.length then
      let handle ← IO.FS.Handle.mk path .append
      handle.write (ByteArray.mk (bytes.drop kept).toArray)
  | _, _ => return

partial def readAll (input : IO.FS.Stream) (before : String) : IO String := do
  let line ← input.getLine
  if line.isEmpty then return before else readAll input (before ++ line)

def run (arguments : List String) : IO UInt32 := do
  let input ← if arguments.isEmpty then readAll (← IO.getStdin) "" else pure ""
  let w ← workspace
  let action := CommandLine.run (arguments.map Text.ofString) (Text.ofString input)
  let (result, after) := action.run.run w
  after.files.items.forM fun (place, item) => putBack w.files place item
  IO.eprint after.errorOutput.toString
  match result with
  | .ok exit =>
    IO.print exit.output.toString
    return UInt32.ofNat exit.code
  | .error fault =>
    IO.eprintln fault.message.toString
    return 1

end CommandWrap.Main

def main (arguments : List String) : IO UInt32 := CommandWrap.Main.run arguments
