import Mathlib
import CommandWrap.Proofs.DecisionLog
import CommandWrap.Proofs.Text.Lines
import CommandWrap.Proofs.Workspace.Notices

/-! Calls that configure the log and calls that write to it, in any order. A file gets the lines that are
written while a path to it was the last to be opened, one after the other, and nothing else. -/
namespace CommandWrap

open CommandWrap.Action FileSystem

/-! ### Calls -/

/-- The path of a log, and whether the log is a full one. -/
structure LogTarget where
  path : Path
  full : Bool

inductive LogCall
  | configure (settings : Settings)
  | log (notice : Notice)

/-- A notice for a log, at its time. -/
structure LogEntry where
  target : LogTarget
  time : Stamp
  notice : Notice

def LogEntry.line (entry : LogEntry) : Text :=
  DecisionLog.line entry.target.full entry.time entry.notice

def LogEntry.write (entry : LogEntry) : Write :=
  (entry.target.path, Utf8.encode (entry.line ++ "\n"))

/-- The workspace when it is that time. -/
def Workspace.timed (w : Workspace) (time : Stamp) : Workspace := { w with now := time }

/-- The log that the settings name, if it can be opened. -/
def Settings.opened? (settings : Settings) (w : Workspace) : Option LogTarget :=
  settings.log.bind fun p =>
    match ((Workspace.openLog p settings.logFull).outcome w).1 with
    | .ok () => some ⟨p, settings.logFull⟩
    | .error _ => none

/-- What calls come to: the workspace they leave, the log that the last configuration opened, and the
notices given while a log was open. -/
structure LogHistory where
  workspace : Workspace
  open? : Option LogTarget := none
  entries : List LogEntry := []

namespace LogHistory

/-- One call more, at its time. -/
def step (h : LogHistory) (call : Stamp × LogCall) : LogHistory :=
  let w := h.workspace.timed call.1
  match call.2 with
  | .configure settings =>
    { h with workspace := ((Workspace.configureLog settings).outcome w).2, open? := settings.opened? w }
  | .log notice =>
    { h with
      workspace := ((Workspace.logNotice notice).outcome w).2
      entries := h.entries ++ h.open?.toList.map fun target => ⟨target, call.1, notice⟩ }

def ofCalls (w : Workspace) (calls : List (Stamp × LogCall)) : LogHistory :=
  calls.foldl step { workspace := w }

/-- The log that is open takes the notices of the calls, each when it comes. -/
def AllTaken : LogHistory → List (Stamp × LogCall) → Prop
  | _, [] => True
  | h, (time, .configure settings) :: more => AllTaken (h.step (time, .configure settings)) more
  | h, (time, .log notice) :: more =>
    (h.workspace.timed time).TakesNotice notice ∧ AllTaken (h.step (time, .log notice)) more

/-- The lines for logs that lead to a place, in their order. -/
def linesAt (h : LogHistory) (place : Place) : List Text :=
  (h.entries.filter fun entry =>
    h.workspace.files.locate true entry.target.path = .ok place).map LogEntry.line

end LogHistory

/-! ### One call -/

lemma FileSystem.writtenAt_map_write (fs : FileSystem) (entries : List LogEntry) (place : Place) :
    fs.writtenAt (entries.map LogEntry.write) place = Utf8.encode (Text.ofLines
      ((entries.filter fun entry => fs.locate true entry.target.path = .ok place).map LogEntry.line)) := by
  induction entries with
  | nil => rfl
  | cons entry entries ih =>
    rw [List.map_cons, writtenAt_cons, ih, List.filter_cons, show entry.write.1 = entry.target.path from rfl]
    by_cases hplace : fs.locate true entry.target.path = .ok place
    · rw [if_pos hplace, if_pos (decide_eq_true hplace), List.map_cons]
      exact (Utf8.encode_append _ _).symm
    · rw [if_neg hplace, if_neg (by simpa using hplace), List.nil_append]

lemma LogEntry.write_ne_nil (entry : LogEntry) : entry.write.2 ≠ [] := by
  rw [write, Utf8.encode_append]
  exact List.append_ne_nil_of_right_ne_nil _ (by decide)

namespace Workspace

variable {settings : Settings} {p : Path} {w : Workspace}

/-- Whether a log can be opened does not go by the one that is open. -/
lemma openLog_unlog (p : Path) (full : Bool) (w : Workspace) :
    ((openLog p full).outcome { w with log := none }).1 = ((openLog p full).outcome w).1 := by
  rw [outcome_openLog, outcome_openLog, show ({ w with log := none } : Workspace).instant = w.instant from rfl]
  dsimp only
  rcases makeDirectories w.instant w.limits.log p.parent w.files with ⟨made, outcome⟩
  cases outcome with
  | error e => rfl
  | ok _ =>
    dsimp only
    cases openFile w.instant p made <;> rfl

/-- A configuration opens the log that the settings name, or leaves none open; the settings tell which. -/
lemma configureLog_opened (settings : Settings) (w : Workspace) :
    (∃ p, settings.log = some p ∧ settings.opened? w = some ⟨p, settings.logFull⟩ ∧
      w.files.Takes [(p, [])] ((configureLog settings).outcome w).2.files ∧
      ((configureLog settings).outcome w).2.LogsTo settings) ∨
    settings.opened? w = none ∧ w.files.Takes [] ((configureLog settings).outcome w).2.files ∧
      ((configureLog settings).outcome w).2.log = none := by
  rcases configureLog_cases settings w with
    ⟨p, opened, hlog, hopen, hconfigured, hwrote, hlogs⟩ | ⟨result, after, hleft, hwrote, hnone, hshut⟩
  · rw [hconfigured]
    refine .inl ⟨p, hlog, ?_, hwrote.files, hlogs⟩
    rw [Settings.opened?, hlog, Option.bind_some, ← openLog_unlog, hopen]
  · rw [hleft]
    refine .inr ⟨?_, hwrote.files, hnone⟩
    rw [Settings.opened?, Option.bind_eq_none_iff]
    intro p hlog
    have hfails := hshut p hlog
    rw [openLog_unlog] at hfails
    split
    · rename_i hopen
      exact absurd hopen hfails
    · rfl

lemma LogsTo.congr {other : Settings} (h : w.LogsTo settings) (hlog : other.log = settings.log)
    (hfull : other.logFull = settings.logFull) : w.LogsTo other := by
  rw [LogsTo] at h ⊢
  rw [hlog, hfull]
  exact h

lemma log_logNotice (notice : Notice) (w : Workspace) : ((logNotice notice).outcome w).2.log = w.log := by
  cases hlog : w.log with
  | none => rw [outcome_logNotice_none hlog, hlog]
  | some log => rw [outcome_logNotice_some hlog, left_change, hlog]

end Workspace

namespace LogHistory

variable {w : Workspace} {h : LogHistory}

/-- Settings that name the log that is open. -/
def settings (h : LogHistory) : Settings :=
  { log := h.open?.map (·.path), logFull := h.open?.any (·.full) }

/-- The log that was opened last is the one that is written to, and the files hold what they held and
then the lines that are due. -/
structure Sound (w : Workspace) (h : LogHistory) : Prop where
  log : h.workspace.LogsTo h.settings
  files : ∃ writes, w.files.Takes writes h.workspace.files ∧
    writes.filter (·.2 ≠ []) = h.entries.map LogEntry.write

lemma sound_start (hnone : w.log = none) : Sound w { workspace := w } :=
  ⟨hnone, [], Takes.refl w.files, rfl⟩

lemma filter_map_write (entries : List LogEntry) :
    (entries.map LogEntry.write).filter (·.2 ≠ []) = entries.map LogEntry.write := by
  refine List.filter_eq_self.mpr fun write hwrite => ?_
  obtain ⟨entry, -, rfl⟩ := List.mem_map.mp hwrite
  exact decide_eq_true entry.write_ne_nil

lemma Sound.configure (hsound : Sound w h) (time : Stamp) (settings : Settings) :
    Sound w (h.step (time, .configure settings)) := by
  obtain ⟨writes, htakes, hwrites⟩ := hsound.files
  rcases Workspace.configureLog_opened settings (h.workspace.timed time) with
    ⟨p, hlog, hopened, hmore, hlogs⟩ | ⟨hopened, hmore, hnone⟩
  · have hsettings : (h.step (time, .configure settings)).settings =
        { log := some p, logFull := settings.logFull } := by
      simp [LogHistory.settings, step, hopened]
    refine ⟨hlogs.congr ?_ ?_, _, htakes.trans hmore, ?_⟩
    · rw [hsettings, hlog]
    · rw [hsettings]
    · rw [List.filter_append, hwrites]
      exact List.append_nil _
  · have hsettings : (h.step (time, .configure settings)).settings.log = none := by
      simp [LogHistory.settings, step, hopened]
    refine ⟨?_, _, htakes.trans hmore, by rw [List.append_nil, hwrites]; rfl⟩
    rw [Workspace.LogsTo, hsettings]
    exact hnone

lemma Sound.notice (hsound : Sound w h) {time : Stamp} {notice : Notice}
    (htaken : (h.workspace.timed time).TakesNotice notice) : Sound w (h.step (time, .log notice)) := by
  obtain ⟨writes, htakes, hwrites⟩ := hsound.files
  have hstart : (h.workspace.timed time).LogsTo h.settings := hsound.log
  have hwrote := Workspace.logNotice_writes hstart notice
  have hlog := Workspace.log_logNotice notice (h.workspace.timed time)
  have hall : ∀ p ∈ h.settings.log.toList, (h.workspace.timed time).logTaken _ = _ := fun p hp =>
    (htaken.takesBytes hstart (Option.mem_toList.mp hp)).logTaken (hstart.isSome (Option.mem_toList.mp hp))
  rw [List.map_congr_left fun p hp => by rw [hall p hp]] at hwrote
  have hdue : (h.settings.log.toList.map fun p =>
      (p, Utf8.encode (DecisionLog.line h.settings.logFull (h.workspace.timed time).now notice ++ "\n"))) =
      (h.open?.toList.map fun target => (⟨target, time, notice⟩ : LogEntry)).map LogEntry.write := by
    rw [LogHistory.settings]
    cases h.open? <;> rfl
  refine ⟨hstart.of_wrote hwrote hlog, _, htakes.trans hwrote.files, ?_⟩
  · rw [List.filter_append, hwrites, hdue, filter_map_write, ← List.map_append]
    rfl

/-- Every call keeps to the log that is open. -/
lemma Sound.run {calls : List (Stamp × LogCall)} (hsound : Sound w h) (htaken : h.AllTaken calls) :
    Sound w (calls.foldl LogHistory.step h) := by
  induction calls generalizing h with
  | nil => exact hsound
  | cons call calls ih =>
    obtain ⟨time, call⟩ := call
    cases call with
    | configure settings => exact ih (hsound.configure time settings) htaken
    | log notice => exact ih (hsound.notice htaken.1) htaken.2

theorem sound_ofCalls {calls : List (Stamp × LogCall)} (hnone : w.log = none)
    (htaken : AllTaken { workspace := w } calls) : Sound w (ofCalls w calls) :=
  (sound_start hnone).run htaken

/-! ### Logs that take everything -/

lemma refusal_step (h : LogHistory) (call : Stamp × LogCall) :
    (h.step call).workspace.files.refusal? = h.workspace.files.refusal? := by
  obtain ⟨time, call⟩ := call
  cases call with
  | configure settings =>
    rcases Workspace.configureLog_opened settings (h.workspace.timed time) with
      ⟨_, _, _, htakes, _⟩ | ⟨_, htakes, _⟩ <;> exact htakes.refusal
  | log notice =>
    rw [step]
    dsimp only
    cases hlog : (h.workspace.timed time).log with
    | none => rw [Workspace.outcome_logNotice_none hlog]; rfl
    | some log =>
      rw [Workspace.outcome_logNotice_some hlog, Workspace.left_change]
      exact refusal_append _ _ _ _

/-- Files that take whatever is written to them take all lines of a log. -/
lemma allTaken_of_willing {h : LogHistory} (hwilling : h.workspace.files.Willing)
    (calls : List (Stamp × LogCall)) : h.AllTaken calls := by
  induction calls generalizing h with
  | nil => trivial
  | cons call calls ih =>
    have hstep : (h.step call).workspace.files.Willing := by
      intro items place bytes
      rw [refusal_step]
      exact hwilling items place bytes
    obtain ⟨time, call⟩ := call
    cases call with
    | configure settings => exact ih hstep
    | log notice => exact ⟨fun log _ => hwilling _ _ _, ih hstep⟩

/-! ### All calls -/

lemma bytesAt_of_sound (hsound : Sound w h) (place : Place) :
    h.workspace.files.bytesAt place =
      w.files.bytesAt place ++ Utf8.encode (Text.ofLines (h.linesAt place)) := by
  obtain ⟨writes, htakes, hwrites⟩ := hsound.files
  rw [htakes.bytes, ← writtenAt_filter, hwrites, writtenAt_map_write]
  rfl

lemma hasFile_of_sound (hsound : Sound w h) {entry : LogEntry} (hentry : entry ∈ h.entries) :
    ∃ place, h.workspace.files.locate true entry.target.path = .ok place ∧
      h.workspace.files.HasFile place := by
  obtain ⟨writes, htakes, hwrites⟩ := hsound.files
  have hwrite : entry.write ∈ writes :=
    List.mem_of_mem_filter (hwrites ▸ List.mem_map_of_mem hentry)
  obtain ⟨place, hplace⟩ := htakes.leads _ hwrite
  exact ⟨place, hplace, (htakes.hasFile place).mpr (.inr ⟨_, hwrite, hplace⟩)⟩

/-- Calls that configure the log and calls that write to it, as they come, from a workspace without a log;
every log takes what is written to it.
A file ends up with what it held and then a line for each notice that was given while a path to it was the
log that the last configuration opened. The line is one of visible signs, and it reads back as an object
that shows the notice. While no log is open, a notice changes no file. -/
theorem logs_of_calls {calls : List (Stamp × LogCall)} (hnone : w.log = none)
    (htaken : AllTaken { workspace := w } calls) :
    let h := ofCalls w calls
    (∀ p place, h.workspace.files.locate true p = .ok place →
      h.workspace.files.bytesAt place =
        w.files.bytesAt place ++ Utf8.encode (Text.ofLines (h.linesAt place))) ∧
    (∀ entry ∈ h.entries, ∃ place, h.workspace.files.locate true entry.target.path = .ok place ∧
      h.workspace.files.HasFile place) ∧
    (∀ entry ∈ h.entries, entry.line.IsVisible ∧ (entry.notice.IsJoined →
      ∃ members, (∀ limit, Json.parse limit entry.line = .ok (.object members)) ∧
        DecisionLog.Shows entry.target.full entry.time entry.notice members)) ∧
    (h.open? = none → ∀ time notice, (h.step (time, .log notice)).workspace = h.workspace.timed time) := by
  intro h
  have hsound : Sound w h := sound_ofCalls hnone htaken
  refine ⟨fun p place _ => bytesAt_of_sound hsound place, fun entry => hasFile_of_sound hsound, ?_, ?_⟩
  · intro entry _
    exact ⟨Json.isVisible_render _, fun hnotice =>
      ⟨_, fun _ => DecisionLog.parse_line hnotice, DecisionLog.shows_members _ _ _⟩⟩
  · intro hopen time notice
    have hlog : (h.workspace.timed time).log = none := by
      have hlogs := hsound.log
      rwa [Workspace.LogsTo, LogHistory.settings, hopen] at hlogs
    simp only [LogHistory.step, Workspace.outcome_logNotice_none hlog]

/-! ### A log behind a link -/

def linkedWorkspace : Workspace :=
  { files := { items := [(["a"], ⟨.file (Utf8.encode "old\n"), 0⟩), (["b"], ⟨.link "a", 0⟩)] }
    homes := { own := "/h" }, stateDirectory := ⟨1, ["h"]⟩, now := ⟨⟨2026, 10, 17⟩, 0, some 0⟩ }

def linkedLog : Settings := { log := some ⟨1, ["b"]⟩ }

def listed : Notice := { event := "rewritten", name := "ls", reason := some "prefix" }

/-- The log is written to, and then there is none. -/
def linkedCalls : List (Stamp × LogCall) :=
  [.configure linkedLog, .log listed, .configure {}, .log listed].map (linkedWorkspace.now, ·)

def linkedEntry : LogEntry := ⟨⟨⟨1, ["b"]⟩, false⟩, linkedWorkspace.now, listed⟩

lemma entries_linked : (ofCalls linkedWorkspace linkedCalls).entries = [linkedEntry] := by cbv

lemma linesAt_linked : (ofCalls linkedWorkspace linkedCalls).linesAt ["a"] = [linkedEntry.line] := by cbv

lemma locate_linked : (ofCalls linkedWorkspace linkedCalls).workspace.files.locate true ⟨1, ["a"]⟩ =
    .ok ["a"] := by cbv

lemma allTaken_linked : AllTaken { workspace := linkedWorkspace } linkedCalls :=
  allTaken_of_willing (fun _ _ _ => rfl) linkedCalls

/-- The line is in the file behind the link, and the notice without a log is nowhere. -/
theorem logs_of_calls_linked :
    let h := ofCalls linkedWorkspace linkedCalls
    linkedWorkspace.log = none ∧ listed.IsJoined ∧ h.open? = none ∧
    h.workspace.files.bytesAt ["a"] =
      Utf8.encode "old\n" ++ Utf8.encode (Text.ofLines [linkedEntry.line]) ∧
    (∃ members, (∀ limit, Json.parse limit linkedEntry.line = .ok (.object members)) ∧
      DecisionLog.Shows false linkedWorkspace.now listed members) ∧
    (h.step (linkedWorkspace.now, .log listed)).workspace = h.workspace.timed linkedWorkspace.now := by
  have hjoined : listed.IsJoined := by
    constructor <;> decide
  have hshut : (ofCalls linkedWorkspace linkedCalls).open? = none := rfl
  obtain ⟨hbytes, -, hlines, hsilent⟩ := logs_of_calls (w := linkedWorkspace) rfl allTaken_linked
  refine ⟨rfl, hjoined, hshut, ?_, ?_, hsilent hshut _ _⟩
  · rw [hbytes _ _ locate_linked, linesAt_linked]
    rfl
  · exact (hlines linkedEntry (by rw [entries_linked]; exact List.mem_singleton_self _)).2 hjoined

/-- The log is the full one of a disk that is full. -/
def fullCalls : List (Stamp × LogCall) :=
  [.configure Workspace.fullLog, .log listed].map (Workspace.fullWorkspace.now, ·)

def fullEntry : LogEntry := ⟨⟨⟨1, ["l"]⟩, true⟩, Workspace.fullWorkspace.now, listed⟩

/-- A file is not only written to under the path that is asked for: the path of the log may be a link. And
it does not get the lines that it does not take. -/
theorem logs_not_by_path_alone :
    (¬ ∀ (w : Workspace) (calls : List (Stamp × LogCall)) (p : Path) (place : Place), w.log = none →
      AllTaken { workspace := w } calls →
      (ofCalls w calls).workspace.files.locate true p = .ok place →
      (ofCalls w calls).workspace.files.bytesAt place = w.files.bytesAt place ++ Utf8.encode
        (Text.ofLines (((ofCalls w calls).entries.filter (·.target.path = p)).map LogEntry.line))) ∧
    ¬ ∀ (w : Workspace) (calls : List (Stamp × LogCall)) (p : Path) (place : Place), w.log = none →
      (ofCalls w calls).workspace.files.locate true p = .ok place →
      (ofCalls w calls).workspace.files.bytesAt place =
        w.files.bytesAt place ++ Utf8.encode (Text.ofLines ((ofCalls w calls).linesAt place)) := by
  constructor
  · intro h
    have hbytes := h linkedWorkspace linkedCalls ⟨1, ["a"]⟩ ["a"] rfl allTaken_linked locate_linked
    have hnone : [linkedEntry].filter (fun entry => entry.target.path = ⟨1, [Text.ofString "a"]⟩) = [] := by
      decide
    have hline : Text.ofLines [linkedEntry.line] = linkedEntry.line ++ "\n" := List.append_nil _
    rw [entries_linked, hnone, bytesAt_of_sound (sound_ofCalls rfl allTaken_linked), linesAt_linked,
      List.append_cancel_left_eq, hline] at hbytes
    exact linkedEntry.write_ne_nil hbytes
  · intro h
    have hlocate : (ofCalls Workspace.fullWorkspace fullCalls).workspace.files.locate true ⟨1, ["l"]⟩ =
        .ok ["l"] := by cbv
    have hempty : (ofCalls Workspace.fullWorkspace fullCalls).workspace.files.bytesAt ["l"] = [] := by cbv
    have hlines : (ofCalls Workspace.fullWorkspace fullCalls).linesAt ["l"] = [fullEntry.line] := by cbv
    have hline : Text.ofLines [fullEntry.line] = fullEntry.line ++ "\n" := List.append_nil _
    have hbytes := h Workspace.fullWorkspace fullCalls ⟨1, ["l"]⟩ ["l"] rfl hlocate
    rw [hempty, hlines, hline] at hbytes
    exact fullEntry.write_ne_nil (List.append_eq_nil_iff.mp hbytes.symm).2

end LogHistory
end CommandWrap
