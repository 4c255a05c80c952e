import Mathlib
import CommandWrap.Proofs.Hook.Writes
import CommandWrap.Proofs.Session.Refinement

/-! Runs of the hook, call after call, with the settings changing in between. Logs, sessions and settings
in files of their own are added to line by line: each rewrite is a line in its session, each command of
the shell is a line in the log in force, and nothing else changes them. -/
namespace CommandWrap

open CommandWrap.Action

/-! ### What becomes of a file -/

namespace FileSystem

variable {before between after : FileSystem} {p : Path} {writes : List Write}

/-- The paths do not lead to one place. -/
def Apart (fs : FileSystem) (p q : Path) : Prop :=
  ∀ a b, fs.locate true p = .ok a → fs.locate true q = .ok b → a ≠ b

/-- The file that the path leads to holds one line more. -/
def GainsLine (before after : FileSystem) (p : Path) : Prop :=
  ∃ place line, after.locate true p = .ok place ∧ Text.IsVisible line ∧
    after.content? place = some (.file (before.bytesAt place ++ Utf8.encode (line ++ "\n")))

/-- Nothing is added to the file that the path leads to; it may be made. -/
def GainsNothing (before after : FileSystem) (p : Path) : Prop :=
  ∀ place, after.locate true p = .ok place → after.bytesAt place = before.bytesAt place

/-- The file that the path leads to is as it was, or missing as it was. -/
def KeepsFile (before after : FileSystem) (p : Path) : Prop :=
  ∀ place, after.locate true p = .ok place → ∀ bytes,
    after.content? place = some (.file bytes) ↔ before.content? place = some (.file bytes)

/-- What the file held that the path leads to, it holds first. -/
def KeepsPrefix (before after : FileSystem) (p : Path) : Prop :=
  ∀ place bytes, before.locate true p = .ok place → before.content? place = some (.file bytes) →
    after.locate true p = .ok place ∧ ∃ more, after.content? place = some (.file (bytes ++ more))

lemma Apart.symm {q : Path} (h : before.Apart p q) : before.Apart q p :=
  fun a b ha hb hab => h b a hb ha hab.symm

lemma Apart.of_keeps {q : Path} (h : after.Apart p q) (hkeeps : before.Keeps after) : before.Apart p q :=
  fun a b ha hb => h a b (hkeeps.locate ha) (hkeeps.locate hb)

lemma KeepsPrefix.trans (h : before.KeepsPrefix between p) (h' : between.KeepsPrefix after p) :
    before.KeepsPrefix after p := by
  intro place bytes hlocate hcontent
  obtain ⟨hlocate, more, hcontent⟩ := h place bytes hlocate hcontent
  obtain ⟨hlocate, further, hcontent⟩ := h' place _ hlocate hcontent
  exact ⟨hlocate, more ++ further, by rw [hcontent, List.append_assoc]⟩

lemma Takes.keepsPrefix (h : before.Takes writes after) (p : Path) : before.KeepsPrefix after p :=
  fun _ _ hlocate hcontent => ⟨h.locate hlocate, _, h.content_append hcontent⟩

lemma writtenAt_of_apart {place : Place} (hplace : after.locate true p = .ok place)
    (hwrites : ∀ write ∈ writes, write.2 = [] ∨ after.Apart write.1 p) :
    after.writtenAt writes place = [] :=
  writtenAt_eq_nil fun write hwrite => (hwrites write hwrite).imp_right
    fun hapart hthere => hapart place place hthere hplace rfl

/-- A line that is written to a path, and nothing else to the place it leads to. -/
lemma Takes.gainsLine {front behind : List Write} {line : Text}
    (h : before.Takes (front ++ (p, Utf8.encode (line ++ "\n")) :: behind) after)
    (hline : line.IsVisible)
    (hfront : ∀ write ∈ front, write.2 = [] ∨ after.Apart write.1 p)
    (hbehind : ∀ write ∈ behind, write.2 = [] ∨ after.Apart write.1 p) : before.GainsLine after p := by
  have hmem : (p, Utf8.encode (line ++ "\n")) ∈ front ++ (p, Utf8.encode (line ++ "\n")) :: behind := by
    simp
  obtain ⟨place, hplace⟩ := h.leads _ hmem
  have hfile := (h.hasFile place).mpr (.inr ⟨_, hmem, hplace⟩)
  refine ⟨place, line, hplace, hline, ?_⟩
  rw [hfile.content, h.bytes, writtenAt_append, writtenAt_cons, writtenAt_of_apart hplace hfront,
    writtenAt_of_apart hplace hbehind, if_pos hplace, List.nil_append, List.append_nil]

lemma Takes.gainsNothing (h : before.Takes writes after)
    (hwrites : ∀ write ∈ writes, write.2 = [] ∨ after.Apart write.1 p) : before.GainsNothing after p := by
  intro place hplace
  rw [h.bytes, writtenAt_of_apart hplace hwrites, List.append_nil]

lemma Takes.keepsFile (h : before.Takes writes after)
    (hwrites : ∀ write ∈ writes, after.Apart write.1 p) : before.KeepsFile after p :=
  fun place hplace => h.content_of_not_written
    fun write hwrite hthere => hwrites write hwrite place place hthere hplace rfl

/-- These logs, the sessions in a directory and the settings have a file each. -/
structure Separates (fs : FileSystem) (logs : List Path) (sessions : Path) (settings : Option Path) :
    Prop where
  logLog : ∀ p ∈ logs, ∀ q ∈ logs, p ≠ q → fs.Apart p q
  sessionSession : ∀ a b, Session.safeId a ≠ Session.safeId b →
    fs.Apart (Session.path sessions a) (Session.path sessions b)
  logSession : ∀ p ∈ logs, ∀ id, fs.Apart p (Session.path sessions id)
  logSettings : ∀ p ∈ logs, ∀ q, settings = some q → fs.Apart p q
  sessionSettings : ∀ id q, settings = some q → fs.Apart (Session.path sessions id) q

lemma Separates.of_keeps {logs : List Path} {sessions : Path} {settings : Option Path}
    (h : after.Separates logs sessions settings) (hkeeps : before.Keeps after) :
    before.Separates logs sessions settings :=
  ⟨fun p hp q hq hne => (h.logLog p hp q hq hne).of_keeps hkeeps,
    fun a b hne => (h.sessionSession a b hne).of_keeps hkeeps,
    fun p hp id => (h.logSession p hp id).of_keeps hkeeps,
    fun p hp q hq => (h.logSettings p hp q hq).of_keeps hkeeps,
    fun id q hq => (h.sessionSettings id q hq).of_keeps hkeeps⟩

end FileSystem

open FileSystem

/-! ### One call -/

def Workspace.settingsPath? (w : Workspace) : Option Path :=
  (Settings.path w.stateDirectory w.homes w.settingsVariable).toOption

/-- A call of the hook at which settings could be loaded. -/
structure HookCall where
  input : Text
  before : Workspace
  settings : Settings
  loaded : Workspace
  result : Except Fault Json
  after : Workspace
  loads : inForce.outcome before = (.ok settings, loaded)
  runs : (Workspace.runHook input).outcome before = (result, after)

namespace HookCall

/-- How deep the payload is read. -/
def limit (call : HookCall) : Json.Limit := call.before.limits.payload

variable {call : HookCall} {logs : List Path} {opened recorded logged : List Write}

/-- The answer is not empty, and the payload names this session. -/
def Rewrites (call : HookCall) (id : Text) : Prop :=
  ∃ (payload : Entries Json) (response : Json), Json.parse call.limit call.input = .ok (.object payload) ∧
    payload.get? "session_id" = some (.string id) ∧ id ≠ [] ∧
    call.result = .ok response ∧ response ≠ .object []

/-- The payload has the shell run a command. -/
def RunsShell (call : HookCall) : Prop :=
  ∃ payload input command, Json.parse call.limit call.input = .ok (.object payload) ∧
    Hook.CallsShell payload input command

/-- The log can be opened and takes the line, and a rewrite can be recorded. -/
def Unhindered (call : HookCall) : Prop :=
  ∀ payload, Json.parse call.limit call.input = .ok (.object payload) →
    call.loaded.Unhindered call.settings payload

def sessionPath (call : HookCall) (id : Text) : Path := Session.path call.before.sessionDirectory id

/-- What a call does to files that are apart. -/
structure Effects (call : HookCall) (logs : List Path) : Prop where
  recorded : ∀ id, call.Rewrites id →
    call.before.files.GainsLine call.after.files (call.sessionPath id)
  notRecorded : ∀ id, (∀ other, call.Rewrites other → Session.safeId other ≠ Session.safeId id) →
    call.before.files.KeepsFile call.after.files (call.sessionPath id)
  logged : call.RunsShell → ∀ p, call.settings.log = some p →
    call.before.files.GainsLine call.after.files p
  notLogged : ∀ p ∈ logs, (call.RunsShell → call.settings.log ≠ some p) →
    call.before.files.GainsNothing call.after.files p
  settings : ∀ p, call.before.settingsPath? = some p →
    call.before.files.KeepsFile call.after.files p

/-- A call opens the log, records in the session and adds to the log, each once at the most. -/
structure Trace (call : HookCall) (opened recorded logged : List Write) : Prop where
  wrote : call.before.Wrote (opened ++ recorded ++ logged) call.after
  opened : ∀ write ∈ opened, call.settings.log = some write.1 ∧ write.2 = []
  recorded : (recorded = [] ∧ ∀ id, ¬ call.Rewrites id) ∨
    ∃ id line, call.Rewrites id ∧ Text.IsVisible line ∧
      recorded = [(call.sessionPath id, []), (call.sessionPath id, Utf8.encode (line ++ "\n"))]
  logged : (logged = [] ∧ (call.RunsShell → call.settings.log = none)) ∨
    ∃ p line, call.RunsShell ∧ call.settings.log = some p ∧ Text.IsVisible line ∧
      logged = [(p, Utf8.encode (line ++ "\n"))]

lemma trace_of_not_object (hnone : ∀ payload, Json.parse call.limit call.input ≠ .ok (.object payload)) :
    call.Trace [] [] [] := by
  have hafter := (Workspace.runHook_of_not_object hnone).1
  rw [call.runs] at hafter
  refine ⟨?_, by simp, .inl ⟨rfl, ?_⟩, .inl ⟨rfl, ?_⟩⟩
  · rw [← hafter]
    exact Workspace.Wrote.refl call.after
  · rintro id ⟨payload, -, hparse, -⟩
    exact hnone payload hparse
  · rintro ⟨payload, -, -, hparse, -⟩
    exact absurd hparse (hnone payload)

lemma trace_of_object {payload : Entries Json}
    (hparse : Json.parse call.limit call.input = .ok (.object payload))
    (h : call.loaded.Unhindered call.settings payload) :
    ∃ opened recorded logged, call.Trace opened recorded logged := by
  -- A call has one payload, which every clause of the trace speaks of.
  have hpayload : ∀ {other : Entries Json}, Json.parse call.limit call.input = .ok (.object other) →
      payload = other := fun hother => Json.object.inj (Except.ok.inj (hparse.symm.trans hother))
  obtain ⟨after, hrun, hwrote⟩ := Workspace.runHook_writes hparse call.loads h
  obtain ⟨hresult, rfl⟩ := Prod.mk.inj (call.runs.symm.trans hrun)
  have hopened : ∀ write ∈ call.settings.log.toList.map fun p => ((p, []) : Write),
      call.settings.log = some write.1 ∧ write.2 = [] := by
    intro write hwrite
    obtain ⟨p, hp, rfl⟩ := List.mem_map.mp hwrite
    exact ⟨Option.mem_toList.mp hp, rfl⟩
  rw [Workspace.writes] at hwrote
  cases hhandle : Hook.handle call.settings payload with
  | error container =>
    -- A payload that cannot be answered has no command, so nothing is written but the log opened.
    rw [hhandle] at hwrote hresult
    refine ⟨_, [], [], by simpa using hwrote, hopened, .inl ⟨rfl, ?_⟩, .inl ⟨rfl, ?_⟩⟩
    · rintro id ⟨_, response, -, -, -, hanswer, -⟩
      cases hresult.symm.trans hanswer
    · rintro ⟨other, input, command, hother, hshell⟩
      obtain rfl := hpayload hother
      cases hhandle.symm.trans (Hook.handle_of_callsShell hshell call.settings)
  | ok outcome =>
    rw [hhandle] at hwrote hresult
    refine ⟨_, _, _, by simpa using hwrote, hopened, ?_, ?_⟩
    · rcases Workspace.sessionWrites_cases hhandle call.before (Workspace.sessionOf? payload) with
        ⟨hnothing, hno⟩ | ⟨id, line, hid, hanswer, hline, hwrites⟩
      · refine .inl ⟨hnothing, ?_⟩
        rintro id ⟨other, response, hother, hid, hne, hanswer, hresponse⟩
        obtain rfl := hpayload hother
        have hsession := Workspace.sessionOf?_eq_some_iff.mpr ⟨hid, hne⟩
        rcases hno with hno | hno
        · cases hno.symm.trans hsession
        · rw [← hno, ← Except.ok.inj (hresult.symm.trans hanswer)] at hresponse
          exact hresponse rfl
      · obtain ⟨hid, hne⟩ := Workspace.sessionOf?_eq_some_iff.mp hid
        exact .inr ⟨id, line, ⟨payload, _, hparse, hid, hne, hresult, hanswer⟩, hline, hwrites⟩
    · rcases Workspace.logWrites_cases hhandle call.before with
        ⟨hnothing, hno⟩ | ⟨p, line, hp, ⟨input, command, hshell⟩, hline, hwrites⟩
      · refine .inl ⟨hnothing, ?_⟩
        rintro ⟨other, input, command, hother, hshell⟩
        obtain rfl := hpayload hother
        exact hno.resolve_right fun hnone => hnone input command hshell
      · exact .inr ⟨p, line, ⟨payload, input, command, hparse, hshell⟩, hp, hline, hwrites⟩

lemma Unhindered.trace (h : call.Unhindered) :
    ∃ opened recorded logged, call.Trace opened recorded logged := by
  by_cases hobject : ∃ payload, Json.parse call.limit call.input = .ok (.object payload)
  · obtain ⟨payload, hparse⟩ := hobject
    exact trace_of_object hparse (h payload hparse)
  · exact ⟨[], [], [], trace_of_not_object fun payload hparse => hobject ⟨payload, hparse⟩⟩

lemma eq_of_rewrites {a b : Text} (ha : call.Rewrites a) (hb : call.Rewrites b) : a = b := by
  obtain ⟨payload, -, hparse, hid, -⟩ := ha
  obtain ⟨other, -, hother, hid', -⟩ := hb
  obtain rfl := Json.object.inj (Except.ok.inj (hparse.symm.trans hother))
  exact Json.string.inj (Option.some.inj (hid.symm.trans hid'))

namespace Trace

lemma mem_recorded (h : call.Trace opened recorded logged) {write : Write} (hwrite : write ∈ recorded) :
    ∃ id, call.Rewrites id ∧ write.1 = call.sessionPath id := by
  rcases h.recorded with ⟨rfl, -⟩ | ⟨id, line, hid, -, rfl⟩
  · cases hwrite
  · refine ⟨id, hid, ?_⟩
    simp only [List.mem_cons, List.not_mem_nil, or_false] at hwrite
    rcases hwrite with rfl | rfl <;> rfl

lemma mem_logged (h : call.Trace opened recorded logged) {write : Write} (hwrite : write ∈ logged) :
    call.RunsShell ∧ call.settings.log = some write.1 := by
  rcases h.logged with ⟨rfl, -⟩ | ⟨p, line, hshell, hp, -, rfl⟩
  · cases hwrite
  · exact ⟨hshell, by rw [List.mem_singleton.mp hwrite, hp]⟩

/-- What is written to is the log in force or a session with a rewrite. -/
lemma mem_writes (h : call.Trace opened recorded logged) {write : Write}
    (hwrite : write ∈ opened ++ recorded ++ logged) : call.settings.log = some write.1 ∨
      ∃ id, call.Rewrites id ∧ write.1 = call.sessionPath id := by
  rcases List.mem_append.mp hwrite with hwrite | hwrite
  · rcases List.mem_append.mp hwrite with hwrite | hwrite
    · exact .inl (h.opened write hwrite).1
    · exact .inr (h.mem_recorded hwrite)
  · exact .inl (h.mem_logged hwrite).2

variable (h : call.Trace opened recorded logged)
  (hseparate : call.after.files.Separates logs call.before.sessionDirectory call.before.settingsPath?)
  (hlogs : ∀ p, call.settings.log = some p → p ∈ logs)
include h hseparate hlogs

lemma gainsLine_session {id : Text} (hid : call.Rewrites id) :
    call.before.files.GainsLine call.after.files (call.sessionPath id) := by
  rcases h.recorded with ⟨-, hnone⟩ | ⟨other, line, hother, hline, hrecorded⟩
  · exact absurd hid (hnone id)
  · obtain rfl := eq_of_rewrites hid hother
    have htakes := h.wrote.files
    rw [hrecorded, show ∀ a b : Write, opened ++ [a, b] ++ logged = (opened ++ [a]) ++ b :: logged by simp]
      at htakes
    refine htakes.gainsLine hline (fun write hwrite => .inl ?_) fun write hwrite => .inr ?_
    · rcases List.mem_append.mp hwrite with hwrite | hwrite
      · exact (h.opened write hwrite).2
      · rw [List.mem_singleton.mp hwrite]
    · exact hseparate.logSession _ (hlogs _ (h.mem_logged hwrite).2) id

lemma keepsFile_session {id : Text}
    (hother : ∀ other, call.Rewrites other → Session.safeId other ≠ Session.safeId id) :
    call.before.files.KeepsFile call.after.files (call.sessionPath id) :=
  h.wrote.files.keepsFile fun write hwrite => by
    rcases h.mem_writes hwrite with hp | ⟨other, hrewrites, hp⟩
    · exact hseparate.logSession _ (hlogs _ hp) id
    · rw [hp]
      exact hseparate.sessionSession other id (hother other hrewrites)

lemma gainsLine_log (hshell : call.RunsShell) {p : Path} (hp : call.settings.log = some p) :
    call.before.files.GainsLine call.after.files p := by
  rcases h.logged with ⟨-, hnone⟩ | ⟨q, line, -, hq, hline, hlogged⟩
  · cases hp.symm.trans (hnone hshell)
  · obtain rfl := Option.some.inj (hp.symm.trans hq)
    have htakes := h.wrote.files
    rw [hlogged] at htakes
    refine htakes.gainsLine hline (fun write hwrite => ?_) (by simp)
    rcases List.mem_append.mp hwrite with hwrite | hwrite
    · exact .inl (h.opened write hwrite).2
    · obtain ⟨id, -, hid⟩ := h.mem_recorded hwrite
      rw [hid]
      exact .inr (hseparate.logSession p (hlogs p hp) id).symm

lemma gainsNothing_log {p : Path} (hp : p ∈ logs)
    (hother : call.RunsShell → call.settings.log ≠ some p) :
    call.before.files.GainsNothing call.after.files p := by
  refine h.wrote.files.gainsNothing fun write hwrite => ?_
  rcases List.mem_append.mp hwrite with hwrite | hwrite
  · rcases List.mem_append.mp hwrite with hwrite | hwrite
    · exact .inl (h.opened write hwrite).2
    · obtain ⟨id, -, hid⟩ := h.mem_recorded hwrite
      rw [hid]
      exact .inr (hseparate.logSession p hp id).symm
  · obtain ⟨hshell, hlog⟩ := h.mem_logged hwrite
    refine .inr (hseparate.logLog _ (hlogs _ hlog) p hp ?_)
    rintro rfl
    exact hother hshell hlog

lemma keepsFile_settings {p : Path} (hp : call.before.settingsPath? = some p) :
    call.before.files.KeepsFile call.after.files p :=
  h.wrote.files.keepsFile fun write hwrite => by
    rcases h.mem_writes hwrite with hlog | ⟨id, -, hid⟩
    · exact hseparate.logSettings _ (hlogs _ hlog) p hp
    · rw [hid]
      exact hseparate.sessionSettings id p hp

end Trace

/-- What a call writes is a line at most in the session and in the log, if these are apart. -/
lemma Unhindered.effects (h : call.Unhindered)
    (hseparate : call.after.files.Separates logs call.before.sessionDirectory call.before.settingsPath?)
    (hlogs : ∀ p, call.settings.log = some p → p ∈ logs) : call.Effects logs := by
  obtain ⟨opened, recorded, logged, htrace⟩ := h.trace
  exact ⟨fun id => htrace.gainsLine_session hseparate hlogs,
    fun id => htrace.keepsFile_session hseparate hlogs,
    fun hshell p => htrace.gainsLine_log hseparate hlogs hshell,
    fun p hp => htrace.gainsNothing_log hseparate hlogs hp,
    fun p => htrace.keepsFile_settings hseparate hlogs⟩

lemma Unhindered.wrote (h : call.Unhindered) : ∃ writes, call.before.Wrote writes call.after := by
  obtain ⟨opened, recorded, logged, htrace⟩ := h.trace
  exact ⟨_, htrace.wrote⟩

end HookCall

/-! ### Call after call -/

variable {w after last : Workspace} {calls : List HookCall} {logs : List Path} {p : Path}

namespace Workspace

/-- Homes, settings and sessions are where they were, and all paths lead where they led. -/
structure Precedes (w after : Workspace) : Prop extends SameHome w after where
  keeps : w.files.Keeps after.files

lemma Precedes.refl (w : Workspace) : w.Precedes w := ⟨SameHome.refl w, Keeps.refl w.files⟩

lemma Precedes.trans {between : Workspace} (h : w.Precedes between) (h' : between.Precedes after) :
    w.Precedes after :=
  ⟨h.toSameHome.trans h'.toSameHome, h.keeps.trans h'.keeps⟩

lemma Wrote.precedes {writes : List Write} (h : w.Wrote writes after) : w.Precedes after :=
  ⟨h.toSameHome, h.files.toKeeps⟩

lemma SameHome.settingsPath? (h : w.SameHome after) : after.settingsPath? = w.settingsPath? := by
  rw [Workspace.settingsPath?, Workspace.settingsPath?, h.homes, h.stateDirectory, h.settingsVariable]

/-- No file that there is was changed but the one with the settings. -/
structure Edited (w after : Workspace) : Prop extends Precedes w after where
  file : ∀ place bytes, w.files.content? place = some (.file bytes) →
    after.files.content? place = some (.file bytes) ∨
      ∃ p, after.settingsPath? = some p ∧ after.files.locate true p = .ok place

lemma Edited.keepsPrefix (h : w.Edited after)
    (hapart : ∀ q, after.settingsPath? = some q → after.files.Apart p q) :
    w.files.KeepsPrefix after.files p := by
  intro place bytes hlocate hcontent
  have hthere := h.keeps.locate hlocate
  refine ⟨hthere, [], ?_⟩
  rw [List.append_nil]
  refine (h.file place bytes hcontent).resolve_right ?_
  rintro ⟨q, hq, hplace⟩
  exact hapart q hq place place hthere hplace rfl

end Workspace

/-- Calls of the hook, one after the other. Before each the settings may be changed. -/
inductive IsRun : Workspace → List HookCall → Workspace → Prop
  | nil (w : Workspace) : IsRun w [] w
  | cons {w last : Workspace} {call : HookCall} {calls : List HookCall} :
    w.Edited call.before → IsRun call.after calls last → IsRun w (call :: calls) last

/-- All logs that the calls are to write to. -/
def logsOf (calls : List HookCall) : List Path := calls.filterMap (·.settings.log)

/-- The files at the start, before each call and after it. -/
def filesOf : Workspace → List HookCall → List FileSystem
  | w, [] => [w.files]
  | w, call :: calls => w.files :: call.before.files :: filesOf call.after calls

lemma filesOf_eq (w : Workspace) (calls : List HookCall) : ∃ more, filesOf w calls = w.files :: more := by
  cases calls <;> exact ⟨_, rfl⟩

lemma IsRun.precedes (hrun : IsRun w calls last) (hfree : ∀ call ∈ calls, call.Unhindered) :
    w.Precedes last := by
  induction hrun with
  | nil w => exact Workspace.Precedes.refl w
  | @cons w last call calls hedited _ ih =>
    obtain ⟨hfirst, hmore⟩ := List.forall_mem_cons.mp hfree
    obtain ⟨writes, hwrote⟩ := hfirst.wrote
    exact hedited.toPrecedes.trans (hwrote.precedes.trans (ih hmore))

/-- The logs and the sessions hold first what they held. -/
def KeepsPrefixes (logs : List Path) (sessions : Path) (before after : FileSystem) : Prop :=
  (∀ p ∈ logs, before.KeepsPrefix after p) ∧
    ∀ id, before.KeepsPrefix after (Session.path sessions id)

instance (logs : List Path) (sessions : Path) : Trans (KeepsPrefixes logs sessions)
    (KeepsPrefixes logs sessions) (KeepsPrefixes logs sessions) :=
  ⟨fun h h' => ⟨fun p hp => (h.1 p hp).trans (h'.1 p hp), fun id => (h.2 id).trans (h'.2 id)⟩⟩

/-- What one call does, and one edit, holds throughout a run, since paths lead where they led. -/
lemma IsRun.keepsPrefixes (hrun : IsRun w calls last) (hfree : ∀ call ∈ calls, call.Unhindered)
    (hseparate : last.files.Separates logs last.sessionDirectory last.settingsPath?) :
    List.IsChain (KeepsPrefixes logs last.sessionDirectory) (filesOf w calls) := by
  induction hrun with
  | nil w => exact List.isChain_singleton _
  | @cons w last call calls hedited hrun ih =>
    obtain ⟨hfirst, hmore⟩ := List.forall_mem_cons.mp hfree
    obtain ⟨writes, hwrote⟩ := hfirst.wrote
    -- Files are apart at the end. What leads somewhere before the call leads there at the end too.
    have hlast := hwrote.precedes.trans (hrun.precedes hmore)
    have hbefore := hseparate.of_keeps hlast.keeps
    rw [hlast.settingsPath?] at hbefore
    obtain ⟨more, hfiles⟩ := filesOf_eq call.after calls
    have hchain := ih hmore hseparate
    rw [filesOf, List.isChain_cons_cons]
    rw [hfiles] at hchain ⊢
    rw [List.isChain_cons_cons]
    refine ⟨⟨fun p hp => hedited.keepsPrefix (hbefore.logSettings p hp), fun id =>
      hedited.keepsPrefix (hbefore.sessionSettings id)⟩, ⟨fun _ _ => hwrote.files.keepsPrefix _,
      fun _ => hwrote.files.keepsPrefix _⟩, hchain⟩

lemma IsRun.effects (hrun : IsRun w calls last) (hfree : ∀ call ∈ calls, call.Unhindered)
    (hseparate : last.files.Separates logs last.sessionDirectory last.settingsPath?)
    (hlogs : ∀ call ∈ calls, ∀ p, call.settings.log = some p → p ∈ logs) :
    ∀ call ∈ calls, call.Effects logs := by
  induction hrun with
  | nil w => simp
  | @cons w last call calls hedited hrun ih =>
    obtain ⟨hfirst, hmore⟩ := List.forall_mem_cons.mp hfree
    obtain ⟨hlog, hlogs⟩ := List.forall_mem_cons.mp hlogs
    obtain ⟨writes, hwrote⟩ := hfirst.wrote
    have hlast := hwrote.precedes.trans (hrun.precedes hmore)
    have hafter := hseparate.of_keeps (hrun.precedes hmore).keeps
    rw [hlast.settingsPath?, hlast.sessionDirectory] at hafter
    exact List.forall_mem_cons.mpr ⟨hfirst.effects hafter hlog, ih hmore hseparate hlogs⟩

/-- In a run that is not hindered, and in which logs, sessions and settings are apart: a rewrite for a
session is one line more in its file, and no other call changes a session; a command of the shell is one
line more in the log in force, and no other call adds to a log; no call changes the settings; and what a
log or a session ever held, it holds first from then on. -/
theorem effects_of_isRun (hrun : IsRun w calls last) (hfree : ∀ call ∈ calls, call.Unhindered)
    (hseparate : last.files.Separates (logsOf calls) last.sessionDirectory last.settingsPath?) :
    (∀ call ∈ calls, call.Effects (logsOf calls)) ∧
      (filesOf w calls).Pairwise (KeepsPrefixes (logsOf calls) last.sessionDirectory) :=
  ⟨hrun.effects hfree hseparate fun call hcall _ hp => List.mem_filterMap.mpr ⟨call, hcall, hp⟩,
    List.isChain_iff_pairwise.mp (hrun.keepsPrefixes hfree hseparate)⟩

/-! ### One listing -/

lemma locate_session {fs : FileSystem} {sessions : Path} {directory place : Place} {id : Text}
    (hsessions : fs.IsDirectoryAt sessions directory)
    (hlinks : ∀ place target, fs.content? place ≠ some (.link target))
    (h : fs.locate true (Session.path sessions id) = .ok place) :
    place = directory ++ [Session.fileName id] := by
  obtain ⟨-, hfollow⟩ := follow_of_locate h
  rw [Session.path_eq, start_child, parts_child] at hfollow
  obtain ⟨parent, -, -, hlength⟩ := follow_parent hfollow (Session.fileName_ne_parent id)
  have hchild := follow_child hsessions.1 hsessions.2 (Session.fileName_ne_parent id) hlength
    fun target => hlinks _ target
  exact Except.ok.inj (hfollow.symm.trans hchild)

def loggingText : Text := "\x7b\"log\": \"/l\"\x7d"

def logging : Settings := { log := some ⟨1, ["l"]⟩ }

def listingText : Text :=
  "\x7b\"tool_name\": \"Bash\", \"tool_input\": \x7b\"command\": \"ls\"\x7d, \"session_id\": \"s\"\x7d"

def listingPayload : Entries Json :=
  [("tool_name", .string "Bash"), ("tool_input", .object [("command", .string "ls")]),
    ("session_id", .string "s")]

def listedWorkspace : Workspace :=
  { files := { items := [(["c"], ⟨.file (Utf8.encode loggingText), 0⟩), (["h"], ⟨.directory, 0⟩),
      (["h", "sessions"], ⟨.directory, 0⟩)] }
    homes := { own := "/h" }, stateDirectory := ⟨1, ["h"]⟩, now := ⟨⟨2026, 10, 17⟩, 0, some 0⟩
    settingsVariable := some "/c" }

set_option maxRecDepth 8000 in
lemma parse_listingText :
    Json.parse listedWorkspace.limits.payload listingText = .ok (.object listingPayload) := by
  cbv

set_option maxRecDepth 8000 in
lemma inForce_listed : inForce.outcome listedWorkspace = (.ok logging, listedWorkspace) := by cbv

def listingCall : HookCall where
  input := listingText
  before := listedWorkspace
  settings := logging
  loaded := listedWorkspace
  result := ((Workspace.runHook listingText).outcome listedWorkspace).1
  after := ((Workspace.runHook listingText).outcome listedWorkspace).2
  loads := inForce_listed
  runs := Prod.mk.eta.symm

set_option maxRecDepth 8000 in
lemma rewrites_listing : listingCall.Rewrites "s" := by
  have hresult : listingCall.result =
      .ok (Hook.rewriteAnswer logging [("command", .string "ls")] "rtk ls") := by
    dsimp only [listingCall]
    cbv
  refine ⟨listingPayload, _, parse_listingText, rfl, by decide, hresult, ?_⟩
  simp [Hook.rewriteAnswer]

lemma runsShell_listing : listingCall.RunsShell :=
  ⟨listingPayload, [("command", .string "ls")], "ls", parse_listingText, rfl, rfl, rfl⟩

lemma opens_listing : listedWorkspace.LogOpens logging ∧
    (((Workspace.configureLog logging).outcome listedWorkspace).2.files.refusal? = fun _ _ _ => none) ∧
    ((Workspace.configureLog logging).outcome listedWorkspace).2.CanRecord "s" "ls" := by
  refine ⟨fun p hp => ?_, by cbv, ?_⟩
  · obtain rfl := Option.some.inj hp
    cbv
  · unfold Workspace.CanRecord
    cbv

lemma unhindered_listing : listingCall.Unhindered := by
  intro payload hparse
  obtain rfl := Json.object.inj (Except.ok.inj (parse_listingText.symm.trans hparse))
  obtain ⟨hopens, hrefusal, hrecord⟩ := opens_listing
  refine ⟨hopens, fun outcome id command hhandle hid hrecorded => ?_, ?_⟩
  · obtain rfl : Text.ofString "s" = id := Option.some.inj hid
    rw [Hook.handle_of_callsShell ⟨rfl, rfl, rfl⟩] at hhandle
    obtain rfl := Except.ok.inj hhandle
    obtain rfl : Text.ofString "ls" = command := Option.some.inj hrecorded
    exact hrecord
  · refine Workspace.takesLine_of_willing (fun items place bytes => ?_) _ _ _
    exact congrFun (congrFun (congrFun hrefusal items) place) bytes

lemma no_link_listed (place : Place) (target : Text) :
    listedWorkspace.files.content? place ≠ some (.link target) := by
  have hitems : ∀ entry ∈ listedWorkspace.files.items, entry.2.content ≠ .link target := by
    simp [listedWorkspace]
  rw [content?]
  split_ifs
  · simp
  · intro h
    obtain ⟨item, hitem, hcontent⟩ := Option.map_eq_some_iff.mp h
    obtain ⟨front, behind, hsplit, -⟩ := List.lookup_eq_some_iff.mp hitem
    exact hitems (place, item) (by simp [hsplit]) hcontent

/-- Paths lead after the call where they led before it, and that can be looked up. -/
lemma separates_listing : listingCall.after.files.Separates [⟨1, ["l"]⟩]
    listedWorkspace.sessionDirectory (some ⟨1, ["c"]⟩) := by
  obtain ⟨writes, hwrote⟩ := unhindered_listing.wrote
  have hkeeps : listedWorkspace.files.Keeps listingCall.after.files := hwrote.files.toKeeps
  have hlogThere : listedWorkspace.files.locate true ⟨1, ["l"]⟩ = .ok ["l"] := by cbv
  have hsettingsThere : listedWorkspace.files.locate true ⟨1, ["c"]⟩ = .ok ["c"] := by cbv
  have hdirectory : listedWorkspace.files.IsDirectoryAt listedWorkspace.sessionDirectory
      ["h", "sessions"] := ⟨by cbv, by cbv⟩
  have hlog := hkeeps.locate hlogThere
  have hsettings := hkeeps.locate hsettingsThere
  have hsession : ∀ {id place}, listingCall.after.files.locate true
      (Session.path listedWorkspace.sessionDirectory id) = .ok place →
        place = [Text.ofString "h", "sessions", Session.fileName id] :=
    locate_session (hkeeps.isDirectoryAt hdirectory)
      fun place target hlink => no_link_listed place target (hkeeps.link.mp hlink)
  constructor
  case logLog =>
    intro p hp q hq hne
    rw [List.mem_singleton.mp hp, List.mem_singleton.mp hq] at hne
    exact absurd rfl hne
  case sessionSession =>
    intro a b hne place other hplace hother heq
    rw [hsession hplace, hsession hother] at heq
    exact hne (Session.fileName_inj.mp (by simpa using heq))
  case logSession =>
    intro p hp id place other hplace hother
    rw [List.mem_singleton.mp hp, hlog] at hplace
    rw [← Except.ok.inj hplace, hsession hother]
    simp
  case logSettings =>
    intro p hp q hq place other hplace hother
    rw [List.mem_singleton.mp hp, hlog] at hplace
    rw [← Option.some.inj hq, hsettings] at hother
    rw [← Except.ok.inj hplace, ← Except.ok.inj hother]
    decide
  case sessionSettings =>
    intro id q hq place other hplace hother
    rw [← Option.some.inj hq, hsettings] at hother
    rw [← Except.ok.inj hother, hsession hplace]
    simp

/-- A listing is one line more in its session and one in the log. -/
theorem effects_of_isRun_listing : IsRun listedWorkspace [listingCall] listingCall.after ∧
    listedWorkspace.files.GainsLine listingCall.after.files (listingCall.sessionPath "s") ∧
    listedWorkspace.files.GainsLine listingCall.after.files ⟨1, ["l"]⟩ ∧
    listedWorkspace.files.KeepsFile listingCall.after.files ⟨1, ["c"]⟩ := by
  have hedited : listedWorkspace.Edited listingCall.before :=
    ⟨Workspace.Precedes.refl _, fun _ _ hcontent => .inl hcontent⟩
  have hrun : IsRun listedWorkspace [listingCall] listingCall.after := .cons hedited (.nil _)
  have hfree : ∀ call ∈ [listingCall], call.Unhindered := by simpa using unhindered_listing
  have hsettings : listedWorkspace.settingsPath? = some ⟨1, ["c"]⟩ := by decide
  have hlast := hrun.precedes hfree
  have hseparate := separates_listing
  rw [← hsettings, ← hlast.settingsPath?, ← hlast.sessionDirectory] at hseparate
  have heffects := (effects_of_isRun hrun hfree hseparate).1 listingCall (List.mem_singleton_self _)
  exact ⟨hrun, heffects.recorded "s" rewrites_listing, heffects.logged runsShell_listing _ rfl,
    heffects.settings _ hsettings⟩

end CommandWrap
