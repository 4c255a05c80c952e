import Mathlib
import CommandWrap.Proofs.Hook.Answer
import CommandWrap.Proofs.Session.Line
import CommandWrap.Proofs.Settings.Loading
import CommandWrap.Proofs.Tally
import CommandWrap.Proofs.Workspace.Notices

/-! What the hook writes: the log of the settings in force is opened, a rewrite is a line in its session,
and a call of the shell is a line in the log. -/
namespace CommandWrap

open CommandWrap.Action FileSystem

variable {settings : Settings} {payload input : Entries Json} {command : Text} {session : Option Text}
  {outcome : Outcome} {w between after : Workspace} {written : List Write}

/-! ### Outcomes -/

namespace Hook

/-- The outcome for what a command of the shell is called with. -/
def handleInput (settings : Settings) (input : Option Json) : Outcome :=
  match input with
  | some (.object input) =>
    match Entries.get? "command" input with
    | some (.string command) => handleCommand settings input command
    | _ => .passed
  | _ => .passed

lemma handle_eq (settings : Settings) (payload : Entries Json) : handle settings payload =
    (isShell (payload.get? "tool_name")).map fun shell =>
      if shell then handleInput settings (payload.get? "tool_input") else .passed := by
  unfold handle handleInput
  congr 1
  funext shell
  cases shell with
  | false => rfl
  | true =>
    cases payload.get? "tool_input" with
    | none => rfl
    | some v => cases v <;> rfl

lemma handleInput_object {input : Entries Json} {command : Text}
    (h : input.get? "command" = some (.string command)) (settings : Settings) :
    handleInput settings (some (.object input)) = handleCommand settings input command := by
  unfold handleInput
  dsimp only
  rw [h]

/-- The payload has the shell run a command. -/
structure CallsShell (payload input : Entries Json) (command : Text) : Prop where
  tool : payload.get? "tool_name" = some (.string shellName)
  toolInput : payload.get? "tool_input" = some (.object input)
  toolCommand : Entries.get? "command" input = some (.string command)

lemma handle_of_callsShell (h : CallsShell payload input command) (settings : Settings) :
    handle settings payload = .ok (handleCommand settings input command) := by
  rw [handle, h.tool, h.toolInput]
  simp [isShell, Except.map, h.toolCommand]

lemma eq_shellName_of_isShell {name : Option Json} (h : isShell name = .ok true) :
    name = some (.string shellName) := by
  rw [isShell.eq_def] at h
  split at h
  · rw [of_decide_eq_true (Except.ok.inj h)]
  · cases h
  · cases h
  · cases h

lemma eq_passed_of_not_callsShell (hnone : ∀ input command, ¬ CallsShell payload input command)
    (hhandle : handle settings payload = .ok outcome) : outcome = .passed := by
  rw [handle] at hhandle
  obtain ⟨shell, hshell, rfl⟩ := map_eq_ok hhandle
  split
  · rename_i input hinput
    split
    · rename_i command hcommand
      exact absurd ⟨eq_shellName_of_isShell hshell, hinput, hcommand⟩ (hnone input command)
    · rfl
  · rfl

/-- A command of the shell is noticed, and it is recorded exactly if it gets an answer. Other calls
pass. -/
lemma outcome_cases (hhandle : handle settings payload = .ok outcome) :
    (outcome = .passed ∧ ∀ input command, ¬ CallsShell payload input command) ∨
    ∃ input command notice, CallsShell payload input command ∧
      (outcome = .unchanged notice ∨ ∃ answer, outcome = .rewritten notice command.trim answer ∧
        answer ≠ .object [] ∧ Tally.key command.trim ≠ []) := by
  by_cases hshell : ∃ input command, CallsShell payload input command
  · obtain ⟨input, command, hshell⟩ := hshell
    rw [handle_of_callsShell hshell, handleCommand] at hhandle
    obtain rfl := Except.ok.inj hhandle
    cases hdecision : settings.decision command with
    | unchanged guard => exact .inr ⟨input, command, _, hshell, .inl rfl⟩
    | rewritten kind rewritten =>
      refine .inr ⟨input, command, _, hshell, .inr ⟨_, rfl, by simp [rewriteAnswer], fun hkey => ?_⟩⟩
      have hempty : command.trim = [] := by
        rw [← Text.trim_trim, Text.trim_eq_nil_iff]
        exact Tally.isBlank_of_key hkey
      exact (Settings.decision_rewritten hdecision).ne_nil hempty
  · have hnone : ∀ input command, ¬ CallsShell payload input command :=
      fun input command h => hshell ⟨input, command, h⟩
    exact .inl ⟨eq_passed_of_not_callsShell hnone hhandle, hnone⟩

lemma key_of_recorded (hhandle : handle settings payload = .ok outcome)
    (h : outcome.recorded? = some command) : Tally.key command ≠ [] := by
  rcases outcome_cases hhandle with
    ⟨rfl, -⟩ | ⟨input, given, notice, -, rfl | ⟨answer, rfl, -, hkey⟩⟩
  · cases h
  · cases h
  · rwa [← Option.some.inj h]

end Hook

/-! ### What is to be written -/

namespace Workspace

/-- A recorded command is a line in the session. -/
def sessionWrites (w : Workspace) (session : Option Text) (outcome : Outcome) : List Write :=
  match session, outcome.recorded? with
  | some id, some command =>
    let p := Session.path w.sessionDirectory id
    [(p, []), (p, Utf8.encode (Session.line w.now.toUtc (Tally.key command) ++ "\n"))]
  | _, _ => []

/-- What a payload has written under these settings. -/
def writes (w : Workspace) (settings : Settings) (payload : Entries Json) : List Write :=
  settings.log.toList.map (·, []) ++ match Hook.handle settings payload with
    | .ok outcome => w.sessionWrites (sessionOf? payload) outcome ++ w.logWrites settings outcome
    | .error _ => []

lemma sessionOf?_eq_some_iff {id : Text} :
    sessionOf? payload = some id ↔ payload.get? "session_id" = some (.string id) ∧ id ≠ [] := by
  rw [sessionOf?]
  split
  · rename_i given hgiven
    rw [hgiven]
    split_ifs with hempty
    · simp only [hempty, Option.some.injEq, Json.string.injEq, false_iff, not_and, not_not]
      exact fun h => h.symm
    · simp only [Option.some.injEq, Json.string.injEq]
      exact ⟨fun h => ⟨h, h ▸ hempty⟩, fun h => h.1⟩
  · rename_i hother
    exact iff_of_false (by simp) fun h => hother id h.1

lemma sessionWrites_cases (hhandle : Hook.handle settings payload = .ok outcome) (w : Workspace)
    (session : Option Text) :
    (w.sessionWrites session outcome = [] ∧ (session = none ∨ outcome.answer = .object [])) ∨
    ∃ id line, session = some id ∧ outcome.answer ≠ .object [] ∧ Text.IsVisible line ∧
      w.sessionWrites session outcome = [(Session.path w.sessionDirectory id, []),
        (Session.path w.sessionDirectory id, Utf8.encode (line ++ "\n"))] := by
  cases session with
  | none => exact .inl ⟨rfl, .inl rfl⟩
  | some id =>
    rcases Hook.outcome_cases hhandle with
      ⟨rfl, -⟩ | ⟨input, command, notice, -, rfl | ⟨answer, rfl, hanswer, -⟩⟩
    · exact .inl ⟨rfl, .inr rfl⟩
    · exact .inl ⟨rfl, .inr rfl⟩
    · exact .inr ⟨id, _, rfl, hanswer, Session.isVisible_line _ _, rfl⟩

lemma logWrites_cases (hhandle : Hook.handle settings payload = .ok outcome) (w : Workspace) :
    (w.logWrites settings outcome = [] ∧
      (settings.log = none ∨ ∀ input command, ¬ Hook.CallsShell payload input command)) ∨
    ∃ p line, settings.log = some p ∧ (∃ input command, Hook.CallsShell payload input command) ∧
      Text.IsVisible line ∧ w.logWrites settings outcome = [(p, Utf8.encode (line ++ "\n"))] := by
  rw [logWrites]
  cases settings.log with
  | none => exact .inl ⟨rfl, .inl rfl⟩
  | some p =>
    rcases Hook.outcome_cases hhandle with
      ⟨rfl, hnone⟩ | ⟨input, command, notice, hshell, rfl | ⟨answer, rfl, -, -⟩⟩
    · exact .inl ⟨rfl, .inr hnone⟩
    · exact .inr ⟨p, _, rfl, ⟨input, command, hshell⟩, Json.isVisible_render _, rfl⟩
    · exact .inr ⟨p, _, rfl, ⟨input, command, hshell⟩, Json.isVisible_render _, rfl⟩

lemma Wrote.sessionWrites (h : w.Wrote written after) (session : Option Text) (outcome : Outcome) :
    after.sessionWrites session outcome = w.sessionWrites session outcome := by
  simp only [Workspace.sessionWrites, h.now, h.sessionDirectory]

/-! ### Records -/

lemma outcome_recordRewrite (id command : Text) (w : Workspace) :
    (recordRewrite id command).outcome w =
      match Session.record w.instant w.limits.sessions w.sessionDirectory id w.now.toUtc command w.files with
      | (files, .ok ()) => (.ok (), { w with files := files })
      | (files, .error error) =>
        if (Fault.file error).isRefusal then
          (say ("Warning: could not record rewrite stats: " ++ error.message)).outcome
            { w with files := files }
        else (.error (.file error), { w with files := files }) := by
  unfold recordRewrite
  rw [outcome_bind, outcome_get]
  dsimp only
  rw [outcome_tryCatch, outcome_change]
  rcases Session.record w.instant w.limits.sessions w.sessionDirectory id w.now.toUtc command w.files with
    ⟨files, result⟩
  cases result with
  | ok _ => rfl
  | error error => cases hrefusal : (Fault.file error).isRefusal <;> simp only [hrefusal] <;> rfl

/-- The workspace once a rewrite is recorded in the session, if there is one. -/
def recorded (w : Workspace) (session : Option Text) (outcome : Outcome) : Workspace :=
  match session, outcome.recorded? with
  | some id, some command => ((recordRewrite id command).outcome w).2
  | _, _ => w

/-- A record leaves the log open that is open, and files take what they took. -/
lemma recordRewrite_keeps (id command : Text) (w : Workspace) :
    ((recordRewrite id command).outcome w).2.log = w.log ∧
      ((recordRewrite id command).outcome w).2.files.refusal? = w.files.refusal? := by
  have hrefusal : (Session.record w.instant w.limits.sessions w.sessionDirectory id w.now.toUtc command
      w.files).1.refusal? = w.files.refusal? := by
    by_cases hkey : Tally.key command = []
    · rw [Session.record_blank hkey]
    · rw [Session.record_eq hkey, refusal_record]
  rw [outcome_recordRewrite]
  rcases hrecord : Session.record w.instant w.limits.sessions w.sessionDirectory id w.now.toUtc command
    w.files with ⟨files, result⟩
  rw [hrecord] at hrefusal
  cases result with
  | ok _ => exact ⟨rfl, hrefusal⟩
  | error error =>
    dsimp only
    split_ifs
    · exact ⟨rfl, hrefusal⟩
    · exact ⟨rfl, hrefusal⟩

lemma recorded_keeps (session : Option Text) (outcome : Outcome) (w : Workspace) :
    (w.recorded session outcome).log = w.log ∧
      (w.recorded session outcome).files.refusal? = w.files.refusal? := by
  unfold recorded
  split
  · exact recordRewrite_keeps _ _ w
  · exact ⟨rfl, rfl⟩

/-- A rewrite is recorded, if it is to be, without a fault. -/
def RecordPasses (w : Workspace) (session : Option Text) (outcome : Outcome) : Prop :=
  ∀ id command, session = some id → outcome.recorded? = some command →
    ((recordRewrite id command).outcome w).1 = .ok ()

/-- Whether the rewrite is recorded or not, what is left to do is to notice the outcome. -/
lemma handle_recorded (hhandle : Hook.handle settings payload = .ok outcome)
    (hpasses : w.RecordPasses session outcome) :
    (handle settings session payload).outcome w =
      (noticed outcome).outcome (w.recorded session outcome) := by
  rw [handle_eq]
  simp only [hhandle]
  unfold recorded
  cases session with
  | none => rfl
  | some id =>
    cases hrecorded : outcome.recorded? with
    | none => rfl
    | some command =>
      have hpass := hpasses id command rfl hrecorded
      dsimp only
      rw [outcome_bind]
      rcases hrun : (recordRewrite id command).outcome w with ⟨result, after⟩
      rw [hrun] at hpass
      obtain rfl : result = .ok () := hpass
      rfl

/-- The log takes the line of the payload once its rewrite is recorded. -/
def TakesLine (w : Workspace) (settings : Settings) (session : Option Text) (payload : Entries Json) : Prop :=
  ∀ outcome, Hook.handle settings payload = .ok outcome → (w.recorded session outcome).TakesOutcome outcome

lemma takesLine_of_log_none (h : w.log = none) (settings : Settings) (session : Option Text)
    (payload : Entries Json) : w.TakesLine settings session payload :=
  fun outcome _ => takesOutcome_of_log_none ((recorded_keeps session outcome w).1.trans h) outcome

lemma takesLine_of_willing (h : w.files.Willing) (settings : Settings) (session : Option Text)
    (payload : Entries Json) : w.TakesLine settings session payload := by
  intro outcome _ notice _ log _
  rw [(recorded_keeps session outcome w).2]
  exact h _ _ _

/-! ### Calls -/

/-- A rewrite is recorded in the session whole. -/
def CanRecord (w : Workspace) (id command : Text) : Prop :=
  (Session.record w.instant w.limits.sessions w.sessionDirectory id w.now.toUtc command w.files).2 = .ok ()

lemma recordRewrite_writes {id : Text} (hkey : Tally.key command ≠ []) (h : w.CanRecord id command) :
    ((recordRewrite id command).outcome w).1 = .ok () ∧
      w.Wrote [(Session.path w.sessionDirectory id, []), (Session.path w.sessionDirectory id,
        Utf8.encode (Session.line w.now.toUtc (Tally.key command) ++ "\n"))]
        ((recordRewrite id command).outcome w).2 := by
  rw [CanRecord, Session.record_eq hkey] at h
  rw [outcome_recordRewrite, Session.record_eq hkey]
  rcases hrecord : w.files.record w.instant w.limits.sessions (Session.path w.sessionDirectory id)
    (Utf8.encode (Session.line w.now.toUtc (Tally.key command) ++ "\n")) with ⟨files, result⟩
  rw [hrecord] at h
  obtain rfl : result = .ok () := h
  exact ⟨rfl, ⟨rfl, rfl, rfl, rfl⟩, takes_record hrecord, rfl⟩

/-- The log can be opened; once it is open, a rewrite can be recorded; and then the log takes the line. -/
structure Unhindered (w : Workspace) (settings : Settings) (payload : Entries Json) : Prop where
  log : w.LogOpens settings
  session : ∀ outcome id command, Hook.handle settings payload = .ok outcome →
    sessionOf? payload = some id → outcome.recorded? = some command →
    ((configureLog settings).outcome w).2.CanRecord id command
  notice : ((configureLog settings).outcome w).2.TakesLine settings (sessionOf? payload) payload

lemma recorded_writes (hkey : ∀ command, outcome.recorded? = some command → Tally.key command ≠ [])
    (hsession : ∀ id command, session = some id → outcome.recorded? = some command →
      w.CanRecord id command) :
    w.RecordPasses session outcome ∧
      w.Wrote (w.sessionWrites session outcome) (w.recorded session outcome) := by
  refine ⟨fun id command hid hrecorded =>
    (recordRewrite_writes (hkey command hrecorded) (hsession id command hid hrecorded)).1, ?_⟩
  unfold sessionWrites recorded
  cases session with
  | none => exact Wrote.refl w
  | some id =>
    cases hrecorded : outcome.recorded? with
    | none => exact Wrote.refl w
    | some command =>
      exact (recordRewrite_writes (hkey command hrecorded) (hsession id command rfl hrecorded)).2

/-- A rewrite is recorded and then noticed; other commands are only noticed. -/
lemma handle_writes (hlog : w.LogsTo settings) (htakes : w.TakesLine settings session payload)
    (hhandle : Hook.handle settings payload = .ok outcome)
    (hsession : ∀ id command, session = some id → outcome.recorded? = some command →
      w.CanRecord id command) :
    ∃ after, (handle settings session payload).outcome w = (.ok outcome.answer, after) ∧
      w.Wrote (w.sessionWrites session outcome ++ w.logWrites settings outcome) after := by
  obtain ⟨hpasses, hrecorded⟩ := recorded_writes (fun _ => Hook.key_of_recorded hhandle) hsession
  obtain ⟨after, hnotice, hnoticed⟩ :=
    notice_writes (hlog.of_wrote hrecorded (recorded_keeps session outcome w).1) (htakes outcome hhandle)
  rw [hrecorded.logWrites] at hnoticed
  exact ⟨after, (handle_recorded hhandle hpasses).trans hnotice, hrecorded.trans hnoticed⟩

/-! ### Runs of the hook -/

lemma inForce_writes (h : inForce.outcome w = (.ok settings, between)) : w.Wrote [] between := by
  obtain ⟨p, first, hpath, h⟩ := bind_ok h
  have hfirst : first = w := by
    rw [settingsPath, outcome_bind, outcome_get] at hpath
    dsimp only at hpath
    rw [outcome_lift] at hpath
    exact (Prod.mk.inj hpath).2.symm
  rw [hfirst, outcome_loadSettings] at h
  split at h
  · rw [← (Prod.mk.inj h).2]
    exact ⟨⟨rfl, rfl, rfl, rfl⟩, Takes.refl w.files, rfl⟩
  · rw [← (Prod.mk.inj h).2]
    exact Wrote.refl w
  · cases h

/-- What a payload is answered, and what it has written. -/
lemma runHook_writes {text : Text}
    (hparse : Json.parse w.limits.payload text = .ok (.object payload))
    (hforce : inForce.outcome w = (.ok settings, between))
    (hfree : between.Unhindered settings payload) :
    ∃ after, (runHook text).outcome w = (match Hook.handle settings payload with
      | .ok outcome => .ok outcome.answer
      | .error container => .error (.toolNameNested container), after) ∧
        w.Wrote (w.writes settings payload) after := by
  have hloaded := inForce_writes hforce
  obtain ⟨opened, hconfigured, hopened, hlog⟩ := configureLog_writes hfree.log
  have hrun : configured.outcome w = (.ok settings, opened) := by
    rw [configured, outcome_bind, hforce]
    dsimp only
    rw [outcome_bind, hconfigured]
    rfl
  have hstart := hloaded.trans hopened
  rw [outcome_runHook hparse, hrun, writes]
  dsimp only
  cases hhandle : Hook.handle settings payload with
  | error container =>
    refine ⟨opened, ?_, by simpa using hstart⟩
    rw [handle, hhandle]
    rfl
  | ok outcome =>
    have hsession : ∀ id command, sessionOf? payload = some id → outcome.recorded? = some command →
        opened.CanRecord id command := by
      intro id command hid hrecorded
      have := hfree.session outcome id command hhandle hid hrecorded
      rwa [hconfigured] at this
    have htakes : opened.TakesLine settings (sessionOf? payload) payload := by
      have := hfree.notice
      rwa [hconfigured] at this
    obtain ⟨after, hanswer, hwrote⟩ := handle_writes hlog htakes hhandle hsession
    refine ⟨after, hanswer, ?_⟩
    rw [hstart.sessionWrites, hstart.logWrites] at hwrote
    exact hstart.trans hwrote

end Workspace
end CommandWrap
