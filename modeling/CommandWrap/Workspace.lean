import CommandWrap.DecisionLog
import CommandWrap.Report
import CommandWrap.Session
import CommandWrap.Settings.File

/-!
The surroundings of a run: files, homes, clock, the variable that names the settings file, the
compressor, the open log, what was said on standard error, and how deep the runtime lets a run go.
Actions change them, and keep the changes when they fail.
-/
namespace CommandWrap

/-- A log that is open. -/
structure OpenLog where
  place : Place
  full : Bool

/-- The compressor as it is found. -/
structure Compressor where
  path : Text
  /-- Exit code and output when asked for the version; none if it cannot be run. -/
  versionRun : Option (Int × Text)

/-- What the compressor says its version is. -/
def Compressor.version? (c : Compressor) : Option Text :=
  match c.versionRun with
  | some (0, output) => if output.isBlank then none else some output.trim
  | _ => none

/-- How deep the runtime lets a run go wherever it nests. What it has left depends on the calls around,
so every place has a limit of its own. -/
structure Limits where
  /-- Levels of a payload, of a settings file and of a line in a session. -/
  payload : Json.Limit
  settings : Json.Limit
  session : Json.Limit
  /-- Missing directories above that of a log, and above that of the sessions. -/
  log : Nat
  sessions : Nat
  /-- Levels of commands in the words of a command. -/
  words : Nat

/-- What is left in a run that is not nested itself. -/
def Limits.usual : Limits :=
  { payload := {}, settings := {}, session := {}, log := 970, sessions := 970, words := 94 }

structure Workspace where
  files : FileSystem
  homes : Homes
  /-- Where settings and sessions are kept. -/
  stateDirectory : Path
  now : Stamp
  settingsVariable : Option Text := none
  compressor : Option Compressor := none
  log : Option OpenLog := none
  errorOutput : Text := []
  /-- Surrogates that standard output has bytes for. -/
  printable : CodePoint → Bool := fun _ => false
  limits : Limits := .usual

abbrev Action := ExceptT Fault (StateM Workspace)

namespace Workspace

def say (line : Text) : Action Unit :=
  modify fun w => { w with errorOutput := w.errorOutput ++ line ++ "\n" }

/-- Runs a change of the files, which stays when it fails. -/
def change (f : FileSystem → FileSystem × Except FileError Unit) : Action Unit := do
  let (files, outcome) := f (← get).files
  modify fun w => { w with files := files }
  match outcome with
  | .ok () => return
  | .error error => throw (.file error)

/-- The time to which changes of files are put down. -/
def instant (w : Workspace) : Int := w.now.instant

def sessionDirectory (w : Workspace) : Path := w.stateDirectory.child "sessions"

/-! ### Settings -/

def settingsPath : Action Path := do
  let w ← get
  (Settings.path w.stateDirectory w.homes w.settingsVariable).mapError Fault.home

def settingsFile (p : Path) : Action SettingsFile := do
  let w ← get
  SettingsFile.read w.limits.settings w.homes p w.files

/-- The settings in a file, or the defaults with a warning. -/
def loadSettings (p : Path) : Action Settings := do
  let file ← settingsFile p
  match file with
  | .invalid reason => say ("Warning: Failed to load " ++ p.toText ++ ": " ++ reason)
  | _ => pure ()
  return file.settings

/-! ### The log -/

/-- Makes the directories around the log and opens it. -/
def openLog (p : Path) (full : Bool) : Action Unit := do
  let w ← get
  change (FileSystem.makeDirectories w.instant w.limits.log p.parent)
  match FileSystem.openFile w.instant p (← get).files with
  | .ok (place, files) => modify fun w => { w with files := files, log := some ⟨place, full⟩ }
  | .error error => throw (.file error)

/-- Opens the log that the settings name. A log that is refused is done without. -/
def configureLog (settings : Settings) : Action Unit := do
  modify fun w => { w with log := none }
  match settings.log with
  | none => return
  | some p =>
    try openLog p settings.logFull
    catch fault =>
      if fault.isRefusal then
        say ("Warning: logging disabled, cannot open " ++ p.toText ++ ": " ++ fault.message)
      else throw fault

def logNotice (notice : Notice) : Action Unit := do
  let w ← get
  match w.log with
  | none => return
  | some log =>
    let bytes := Utf8.encode (DecisionLog.line log.full w.now notice ++ "\n")
    change (FileSystem.append w.instant log.place bytes)

/-! ### Tool calls -/

/-- Records a rewrite in a session; a refusal is only reported. -/
def recordRewrite (id command : Text) : Action Unit := do
  let w ← get
  try change (Session.record w.instant w.limits.sessions w.sessionDirectory id w.now.toUtc command)
  catch fault =>
    if fault.isRefusal then
      say ("Warning: could not record rewrite stats: " ++ fault.message)
    else throw fault

/-- Answers a payload; a rewrite is recorded in the session, if there is one, and logged. -/
def handle (settings : Settings) (session : Option Text) (payload : Entries Json) : Action Json := do
  match Hook.handle settings payload with
  | .error container => throw (.toolNameNested container)
  | .ok outcome =>
    match session, outcome.recorded? with
    | some id, some command => recordRewrite id command
    | _, _ => pure ()
    match outcome.notice? with
    | some notice => logNotice notice
    | none => pure ()
    return outcome.answer

/-- The session of a payload. -/
def sessionOf? (payload : Entries Json) : Option Text :=
  match payload.get? "session_id" with
  | some (.string id) => if id = [] then none else some id
  | _ => none

/-- Answers the text of a payload. A text that is no object gets the empty answer. -/
def runHook (text : Text) : Action Json := do
  if text.isBlank then return .object []
  match Json.parse (← get).limits.payload text with
  | .error (.malformed ..) => return .object []
  | .error error => throw (.json error)
  | .ok (.object payload) =>
    let settings ← loadSettings (← settingsPath)
    configureLog settings
    handle settings (sessionOf? payload) payload
  | .ok _ => return .object []

/-! ### Reports -/

/-- The report on a session, or on the one that was written last. -/
def gain (id : Option Text) : Action Text := do
  let w ← get
  let chosen ← match id.getD [] with
    | [] => (Session.latest w.sessionDirectory w.files).mapError Fault.file
    | id => pure (some id)
  match chosen with
  | none => return "No sessions recorded yet."
  | some id =>
    let account ← Session.load w.limits.session w.now.toUtc w.sessionDirectory id w.files
    match Report.ofTally? account.startedAt w.now.toUtc account.tally with
    | some report => return report
    | none => throw .timesDiffer

def compressorLine (c : Option Compressor) : Text :=
  match c with
  | some c => "rtk:    " ++ c.path ++ " (" ++ (c.version?.getD "unknown version") ++ ")"
  | none => "rtk:    not found in PATH (rewritten commands will fail)"

/-- What becomes of the settings file, found out by reading it. -/
def settingsState (p : Path) : Action Text := do
  let w ← get
  if ← (w.files.isFile p).mapError Fault.file then
    try
      let text ← w.files.readText p
      let _ ← (Settings.parse w.limits.settings w.homes text).mapError Fault.settings
      pure "loaded"
    catch fault =>
      if fault.isBadSettings then pure ("invalid, using defaults: " ++ fault.message)
      else throw fault
  else pure "not found, using defaults"

def settingsLine (p : Path) (state : Text) : Text :=
  "Config: " ++ p.toText ++ " (" ++ state ++ ")"

/-- Whether the compressor is there and which settings are in effect. -/
def status : Action Text := do
  let p ← settingsPath
  let state ← settingsState p
  return Text.lines [compressorLine (← get).compressor, settingsLine p state]

end Workspace
end CommandWrap
