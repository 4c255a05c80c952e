import Mathlib
import CommandWrap.Workspace
import CommandWrap.Proofs.Action
import CommandWrap.Proofs.FileSystem.Names

/-! The log and the answer. A log that cannot be opened is done without, so it has a part in what is answered
only if it cannot so much as be tried, or is open and does not take the line. -/
namespace CommandWrap

open CommandWrap.Action

variable {a b settings : Settings} {p : Path} {w : Workspace}

/-! ### Opening the log -/

namespace Workspace

lemma outcome_change (f : FileSystem → FileSystem × Except FileError Unit) (w : Workspace) :
    (change f).outcome w = match f w.files with
      | (files, .ok ()) => (.ok (), { w with files := files })
      | (files, .error e) => (.error (.file e), { w with files := files }) := by
  rw [change, outcome_bind, outcome_get]
  dsimp only
  rcases f w.files with ⟨files, outcome⟩
  rw [outcome_bind, outcome_modify]
  cases outcome <;> rfl

lemma left_change (f : FileSystem → FileSystem × Except FileError Unit) (w : Workspace) :
    ((change f).outcome w).2 = { w with files := (f w.files).1 } := by
  rw [outcome_change]
  rcases f w.files with ⟨files, _ | _⟩ <;> rfl

lemma outcome_openLog (p : Path) (full : Bool) (w : Workspace) :
    (openLog p full).outcome w =
      match FileSystem.makeDirectories w.instant w.limits.log p.parent w.files with
      | (made, .error e) => (.error (.file e), { w with files := made })
      | (made, .ok ()) => match FileSystem.openFile w.instant p made with
        | .ok (place, files) => (.ok (), { w with files := files, log := some ⟨place, full⟩ })
        | .error e => (.error (.file e), { w with files := made }) := by
  rw [openLog, outcome_bind, outcome_get]
  dsimp only
  rw [outcome_bind, outcome_change]
  rcases FileSystem.makeDirectories w.instant w.limits.log p.parent w.files with ⟨made, outcome⟩
  cases outcome with
  | error e => rfl
  | ok _ =>
    dsimp only
    rw [outcome_bind, outcome_get]
    dsimp only
    cases FileSystem.openFile w.instant p made <;> rfl

/-- The workspace once it was said that there is no log. -/
def unlogged (w : Workspace) (p : Path) (fault : Fault) : Workspace :=
  { w with errorOutput := w.errorOutput ++
      ("Warning: logging disabled, cannot open " ++ p.toText ++ ": " ++ fault.message) ++ "\n" }

lemma outcome_configureLog_none (h : settings.log = none) (w : Workspace) :
    (configureLog settings).outcome w = (.ok (), { w with log := none }) := by
  rw [configureLog, outcome_bind, outcome_modify, h]
  rfl

lemma outcome_configureLog_some (h : settings.log = some p) (w : Workspace) :
    (configureLog settings).outcome w =
      match (openLog p settings.logFull).outcome { w with log := none } with
      | (.ok (), opened) => (.ok (), opened)
      | (.error fault, tried) =>
        if fault.isRefusal then (.ok (), tried.unlogged p fault) else (.error fault, tried) := by
  rw [configureLog, outcome_bind, outcome_modify, h]
  dsimp only
  rw [outcome_tryCatch]
  rcases (openLog p settings.logFull).outcome { w with log := none } with ⟨outcome, tried⟩
  cases outcome with
  | ok _ => rfl
  | error fault => cases hrefusal : fault.isRefusal <;> simp only [hrefusal] <;> rfl

end Workspace

/-! ### Logs that cannot be tried -/

namespace Workspace

end Workspace

/-! ### Lines in the log -/

namespace Workspace

/-- What a notice adds to a log. -/
def noticeBytes (w : Workspace) (log : OpenLog) (notice : Notice) : Bytes :=
  Utf8.encode (DecisionLog.line log.full w.now notice ++ "\n")

/-- The log takes the line of a notice, if one is open. -/
def TakesNotice (w : Workspace) (notice : Notice) : Prop :=
  ∀ log, w.log = some log →
    w.files.refusal? w.files.items log.place (w.noticeBytes log notice) = none

/-- The workspace once the log has taken the line of a notice. -/
def withNotice (w : Workspace) (notice : Notice) : Workspace :=
  match w.log with
  | none => w
  | some log =>
    { w with files := w.files.extend w.instant log.place (w.noticeBytes log notice) }

lemma outcome_logNotice_none (h : w.log = none) (notice : Notice) :
    (logNotice notice).outcome w = (.ok (), w) := by
  rw [logNotice, outcome_bind, outcome_get]
  dsimp only
  rw [h]
  rfl

lemma outcome_logNotice_some {log : OpenLog} (h : w.log = some log) (notice : Notice) :
    (logNotice notice).outcome w =
      (change (FileSystem.append w.instant log.place (w.noticeBytes log notice))).outcome w := by
  rw [logNotice, outcome_bind, outcome_get]
  dsimp only
  rw [h]
  rfl

lemma outcome_logNotice {notice : Notice} (h : w.TakesNotice notice) :
    (logNotice notice).outcome w = (.ok (), w.withNotice notice) := by
  rw [withNotice]
  split
  · rename_i hlog
    exact outcome_logNotice_none hlog notice
  · rename_i log hlog
    rw [outcome_logNotice_some hlog, outcome_change, FileSystem.append, h log hlog]

/-- The log takes what is noticed of an outcome, if a log is open and anything is noticed. -/
def TakesOutcome (w : Workspace) (outcome : Outcome) : Prop :=
  ∀ notice, outcome.notice? = some notice → w.TakesNotice notice

lemma takesOutcome_of_log_none (h : w.log = none) (outcome : Outcome) : w.TakesOutcome outcome := by
  intro notice _ log hlog
  rw [h] at hlog
  cases hlog

end Workspace

/-! ### Answers -/

namespace Workspace

/-- What is left to do once a rewrite is recorded: the outcome is noticed, and answered. -/
def noticed (outcome : Outcome) : Action Json :=
  match outcome.notice? with
  | some notice => do
    logNotice notice
    pure outcome.answer
  | none => pure outcome.answer

lemma handle_eq (settings : Settings) (session : Option Text) (payload : Entries Json) :
    handle settings session payload = match Hook.handle settings payload with
      | .error container => throw (.toolNameNested container)
      | .ok outcome => match session, outcome.recorded? with
        | some id, some command => do
          recordRewrite id command
          noticed outcome
        | _, _ => noticed outcome := by
  rw [handle]
  cases Hook.handle settings payload with
  | error container => rfl
  | ok outcome =>
    cases session with
    | none => rfl
    | some id => cases outcome.recorded? <;> rfl

/-- Logging comes before the answer. -/
lemma outcome_noticed {outcome : Outcome} (h : w.TakesOutcome outcome) :
    (noticed outcome).outcome w = (.ok outcome.answer, match outcome.notice? with
      | none => w
      | some notice => w.withNotice notice) := by
  rw [noticed]
  cases hnotice : outcome.notice? with
  | none => rfl
  | some notice =>
    dsimp only
    rw [outcome_bind, outcome_logNotice (h notice hnotice)]
    rfl

lemma outcome_handle_none (settings : Settings) (payload : Entries Json) (w : Workspace) :
    (handle settings none payload).outcome w = match Hook.handle settings payload with
      | .ok outcome => (noticed outcome).outcome w
      | .error container => (.error (.toolNameNested container), w) := by
  rw [handle_eq]
  cases Hook.handle settings payload <;> rfl

/-- The answer to a payload once the log is configured, and the tally that a rewrite is counted in. -/
def counted (settings : Settings) (payload : Entries Json) (tally : Tally) (w : Workspace) :
    Except Fault Json × Tally :=
  match (configureLog settings).outcome w with
  | (.error fault, _) => (.error fault, tally)
  | (.ok (), after) =>
    (((handle settings none payload).outcome after).1,
      match Hook.handle settings payload with
      | .ok outcome => outcome.count tally
      | .error _ => tally)

end Workspace

namespace Workspace

variable {payload : Entries Json} {tally : Tally}

def emptyWorkspace : Workspace :=
  { files := {}, homes := { own := "/h" }, stateDirectory := ⟨1, ["h"]⟩, now := ⟨⟨2026, 10, 17⟩, 0, some 0⟩ }

/-- Files can be opened, but take nothing. -/
def fullWorkspace : Workspace :=
  { emptyWorkspace with files := { refusal? := fun _ _ _ => some (0, .noSpace) } }

def fullLog : Settings := { log := some ⟨1, ["l"]⟩, logFull := true }

def listing : Entries Json :=
  [("tool_name", .string "Bash"), ("tool_input", .object [("command", .string "ls")])]

end Workspace
end CommandWrap
