import Mathlib
import CommandWrap.Proofs.FileSystem.Growth
import CommandWrap.Proofs.Workspace.Logging

/-! What is written to the log: nothing but lines for notices, each as far as an open log takes it, and the
outcome of the run goes by whether it is taken whole. -/
namespace CommandWrap

open CommandWrap.Action FileSystem

variable {settings : Settings} {outcome : Outcome} {w between after : Workspace}
  {first second written : List Write}

namespace Workspace

/-! ### What was written -/

/-- Homes, settings and sessions are where they were, and the limits are the same. -/
structure SameHome (w after : Workspace) : Prop where
  homes : after.homes = w.homes
  stateDirectory : after.stateDirectory = w.stateDirectory
  settingsVariable : after.settingsVariable = w.settingsVariable
  limits : after.limits = w.limits

namespace SameHome

lemma refl (w : Workspace) : w.SameHome w := ⟨rfl, rfl, rfl, rfl⟩

lemma trans (h : w.SameHome between) (h' : between.SameHome after) : w.SameHome after :=
  ⟨h'.homes.trans h.homes, h'.stateDirectory.trans h.stateDirectory,
    h'.settingsVariable.trans h.settingsVariable, h'.limits.trans h.limits⟩

lemma sessionDirectory (h : w.SameHome after) : after.sessionDirectory = w.sessionDirectory := by
  rw [Workspace.sessionDirectory, Workspace.sessionDirectory, h.stateDirectory]

end SameHome

/-- This was written in no time, and nothing else happened to the files. -/
structure Wrote (w : Workspace) (writes : List Write) (after : Workspace) : Prop
    extends SameHome w after where
  files : w.files.Takes writes after.files
  now : after.now = w.now

lemma Wrote.refl (w : Workspace) : w.Wrote [] w := ⟨SameHome.refl w, Takes.refl w.files, rfl⟩

lemma Wrote.trans (h : w.Wrote first between) (h' : between.Wrote second after) :
    w.Wrote (first ++ second) after :=
  ⟨h.toSameHome.trans h'.toSameHome, h.files.trans h'.files, h'.now.trans h.now⟩

/-! ### An open log -/

/-- The log that the settings name is open. -/
def LogsTo (w : Workspace) (settings : Settings) : Prop :=
  match settings.log with
  | none => w.log = none
  | some p => ∃ place, w.log = some ⟨place, settings.logFull⟩ ∧
    w.files.locate true p = .ok place ∧ w.files.HasFile place

lemma LogsTo.of_wrote (h : w.LogsTo settings) (hwrote : w.Wrote written after)
    (hlog : after.log = w.log) : after.LogsTo settings := by
  rw [LogsTo] at h ⊢
  cases hsettings : settings.log with
  | none =>
    rw [hsettings] at h
    exact hlog.trans h
  | some p =>
    rw [hsettings] at h
    obtain ⟨place, hopen, hlocate, hfile⟩ := h
    exact ⟨place, hlog.trans hopen, hwrote.files.locate hlocate,
      (hwrote.files.hasFile place).mpr (.inl hfile)⟩

/-- The log that the settings name is open, or none is. -/
def LogsAtMost (w : Workspace) (settings : Settings) : Prop := w.LogsTo settings ∨ w.log = none

lemma LogsAtMost.of_wrote (h : w.LogsAtMost settings) (hwrote : w.Wrote written after)
    (hlog : after.log = w.log) : after.LogsAtMost settings := by
  rcases h with h | h
  · exact .inl (h.of_wrote hwrote hlog)
  · exact .inr (hlog.trans h)

lemma openLog_wrote {p : Path} (hlog : settings.log = some p) (w : Workspace) :
    (∃ opened, (openLog p settings.logFull).outcome w = (.ok (), opened) ∧ w.Wrote [(p, [])] opened ∧
      opened.LogsTo settings) ∨
    ∃ error tried, (openLog p settings.logFull).outcome w = (.error (.file error), tried) ∧
      w.Wrote [] tried ∧ tried.log = w.log := by
  have hmakes := takes_makeDirectories w.instant w.limits.log p.parent w.files
  rw [outcome_openLog]
  rcases hmade : makeDirectories w.instant w.limits.log p.parent w.files with ⟨made, result⟩
  rw [hmade] at hmakes
  cases result with
  | error error => exact .inr ⟨error, _, rfl, ⟨⟨rfl, rfl, rfl, rfl⟩, hmakes, rfl⟩, rfl⟩
  | ok _ =>
    dsimp only
    cases hopen : openFile w.instant p made with
    | error error => exact .inr ⟨error, _, rfl, ⟨⟨rfl, rfl, rfl, rfl⟩, hmakes, rfl⟩, rfl⟩
    | ok opened =>
      obtain ⟨htakes, hlocate, hfile⟩ := takes_openFile hopen
      refine .inl ⟨_, rfl, ⟨⟨rfl, rfl, rfl, rfl⟩, hmakes.trans htakes, rfl⟩, ?_⟩
      rw [LogsTo, hlog]
      exact ⟨opened.1, rfl, hlocate, hfile⟩

/-- The log that the settings name can be opened, if they name one. -/
def LogOpens (w : Workspace) (settings : Settings) : Prop :=
  ∀ p, settings.log = some p → ((openLog p settings.logFull).outcome { w with log := none }).1 = .ok ()

lemma configureLog_cases (settings : Settings) (w : Workspace) :
    (∃ p opened, settings.log = some p ∧
      (openLog p settings.logFull).outcome { w with log := none } = (.ok (), opened) ∧
      (configureLog settings).outcome w = (.ok (), opened) ∧ w.Wrote [(p, [])] opened ∧
      opened.LogsTo settings) ∨
    ∃ result after, (configureLog settings).outcome w = (result, after) ∧ w.Wrote [] after ∧
      after.log = none ∧ ∀ p, settings.log = some p →
        ((openLog p settings.logFull).outcome { w with log := none }).1 ≠ .ok () := by
  have hstart : w.Wrote [] { w with log := none } := ⟨⟨rfl, rfl, rfl, rfl⟩, Takes.refl w.files, rfl⟩
  cases hlog : settings.log with
  | none => exact .inr ⟨_, _, outcome_configureLog_none hlog w, hstart, rfl, by simp⟩
  | some p =>
    have hconfigured := outcome_configureLog_some hlog w
    rcases openLog_wrote hlog { w with log := none } with
      ⟨opened, hopen, hwrote, hlogs⟩ | ⟨error, tried, hfails, hwrote, hnone⟩
    · rw [hopen] at hconfigured
      exact .inl ⟨p, opened, rfl, hopen, hconfigured, hstart.trans hwrote, hlogs⟩
    · rw [hfails] at hconfigured
      dsimp only at hconfigured
      have hshut : ∀ q, some p = some q →
          ((openLog q settings.logFull).outcome { w with log := none }).1 ≠ .ok () := by
        rintro q ⟨⟩
        simp [hfails]
      have hsaid : tried.Wrote [] (tried.unlogged p (.file error)) :=
        ⟨⟨rfl, rfl, rfl, rfl⟩, Takes.refl tried.files, rfl⟩
      split_ifs at hconfigured
      · exact .inr ⟨_, _, hconfigured, (hstart.trans hwrote).trans hsaid, hnone, hshut⟩
      · exact .inr ⟨_, _, hconfigured, hstart.trans hwrote, hnone, hshut⟩

lemma configureLog_writes (h : w.LogOpens settings) : ∃ after,
    (configureLog settings).outcome w = (.ok (), after) ∧
      w.Wrote (settings.log.toList.map (·, [])) after ∧ after.LogsTo settings := by
  rcases configureLog_cases settings w with
    ⟨p, opened, hlog, -, hopened, hwrote, hlogs⟩ | ⟨result, left, -, -, -, hshut⟩
  · exact ⟨opened, hopened, by rw [hlog]; exact hwrote, hlogs⟩
  · cases hlog : settings.log with
    | none =>
      refine ⟨_, outcome_configureLog_none hlog w, ⟨⟨rfl, rfl, rfl, rfl⟩, Takes.refl _, rfl⟩, ?_⟩
      rw [LogsTo, hlog]
    | some p => exact absurd (h p hlog) (hshut p hlog)

/-! ### Notices -/

/-- What an open log takes of bytes. -/
def logTaken (w : Workspace) (bytes : Bytes) : Bytes :=
  match w.log with
  | none => []
  | some log => w.files.taken log.place bytes

/-- The log takes the bytes, if one is open. -/
def TakesBytes (w : Workspace) (bytes : Bytes) : Prop :=
  ∀ log, w.log = some log → w.files.refusal? w.files.items log.place bytes = none

lemma TakesBytes.logTaken {bytes : Bytes} (h : w.TakesBytes bytes) (hopen : w.log.isSome) :
    w.logTaken bytes = bytes := by
  obtain ⟨log, hlog⟩ := Option.isSome_iff_exists.mp hopen
  rw [Workspace.logTaken, hlog]
  dsimp only
  rw [taken, h log hlog]

lemma TakesNotice.takesBytes {notice : Notice} {p : Path} (h : w.TakesNotice notice)
    (hlogs : w.LogsTo settings) (hlog : settings.log = some p) :
    w.TakesBytes (Utf8.encode (DecisionLog.line settings.logFull w.now notice ++ "\n")) := by
  rw [LogsTo, hlog] at hlogs
  obtain ⟨place, hopen, -⟩ := hlogs
  rintro log hother
  obtain rfl := Option.some.inj (hopen.symm.trans hother)
  exact h _ hopen

/-- A notice is added to the log that is open, as far as it takes the line. -/
lemma logNotice_writes (h : w.LogsTo settings) (notice : Notice) :
    w.Wrote (settings.log.toList.map fun p => (p, w.logTaken
      (Utf8.encode (DecisionLog.line settings.logFull w.now notice ++ "\n"))))
      ((logNotice notice).outcome w).2 := by
  rw [LogsTo] at h
  cases hlog : settings.log with
  | none =>
    rw [hlog] at h
    rw [outcome_logNotice_none h]
    exact Wrote.refl w
  | some p =>
    rw [hlog] at h
    obtain ⟨place, hopen, hlocate, hfile⟩ := h
    rw [outcome_logNotice_some hopen, left_change, logTaken, hopen]
    exact ⟨⟨rfl, rfl, rfl, rfl⟩, takes_append hlocate hfile w.instant _, rfl⟩

lemma LogsTo.isSome {p : Path} (h : w.LogsTo settings) (hlog : settings.log = some p) :
    w.log.isSome := by
  rw [LogsTo, hlog] at h
  obtain ⟨place, hopen, -⟩ := h
  rw [hopen]
  rfl

/-- A notice is a line in the log. -/
def logWrites (w : Workspace) (settings : Settings) (outcome : Outcome) : List Write :=
  match settings.log, outcome.notice? with
  | some p, some notice =>
    [(p, Utf8.encode (DecisionLog.line settings.logFull w.now notice ++ "\n"))]
  | _, _ => []

lemma Wrote.logWrites (h : w.Wrote written after) (settings : Settings) (outcome : Outcome) :
    after.logWrites settings outcome = w.logWrites settings outcome := by
  simp only [Workspace.logWrites, h.now]

/-- What an outcome writes to the log, if one is open, as far as it is taken. -/
def noticeWrites (w : Workspace) (settings : Settings) (outcome : Outcome) : List Write :=
  if w.log.isSome then
    (w.logWrites settings outcome).map fun write => (write.1, w.logTaken write.2)
  else []

/-- What comes of an outcome that is noticed: the answer, or the fault of a log that does not take the
line. -/
def noticeResult (w : Workspace) (outcome : Outcome) : Except Fault Json :=
  match outcome.notice?, w.log with
  | some notice, some log =>
    match w.files.refusal? w.files.items log.place (w.noticeBytes log notice) with
    | none => .ok outcome.answer
    | some (_, problem) => .error (.file (.unwritten problem))
  | _, _ => .ok outcome.answer

lemma noticeResult_of_takes (h : w.TakesOutcome outcome) : w.noticeResult outcome = .ok outcome.answer := by
  rw [noticeResult]
  split
  · rename_i notice log hnotice hlog
    rw [h notice hnotice log hlog]
  · rfl

lemma outcome_noticed_some {notice : Notice} (h : outcome.notice? = some notice) (w : Workspace) :
    (noticed outcome).outcome w = match (logNotice notice).outcome w with
      | (.ok (), told) => (.ok outcome.answer, told)
      | (.error fault, told) => (.error fault, told) := by
  rw [noticed, h]
  dsimp only
  rw [outcome_bind]
  rcases (logNotice notice).outcome w with ⟨_ | _, _⟩ <;> rfl

lemma noticed_fst (outcome : Outcome) (w : Workspace) :
    ((noticed outcome).outcome w).1 = w.noticeResult outcome := by
  by_cases htakes : w.TakesOutcome outcome
  · rw [outcome_noticed htakes, noticeResult_of_takes htakes]
  · simp only [TakesOutcome, TakesNotice, not_forall] at htakes
    obtain ⟨notice, hnotice, log, hlog, hrefused⟩ := htakes
    obtain ⟨⟨taken, problem⟩, hrefused⟩ := Option.ne_none_iff_exists'.mp hrefused
    rw [outcome_noticed_some hnotice, outcome_logNotice_some hlog, outcome_change, append, hrefused,
      noticeResult, hnotice, hlog]
    dsimp only
    rw [hrefused]

lemma notice_wrote (h : w.LogsAtMost settings) (outcome : Outcome) :
    ((noticed outcome).outcome w).1 = w.noticeResult outcome ∧
      w.Wrote (w.noticeWrites settings outcome) ((noticed outcome).outcome w).2 := by
  refine ⟨noticed_fst outcome w, ?_⟩
  rw [noticeWrites]
  cases hnotice : outcome.notice? with
  | none =>
    have hnothing : w.logWrites settings outcome = [] := by
      rw [logWrites, hnotice]
      cases settings.log <;> rfl
    rw [noticed, hnotice, hnothing, List.map_nil, ite_self]
    exact Wrote.refl w
  | some notice =>
    have htold : ((noticed outcome).outcome w).2 = ((logNotice notice).outcome w).2 := by
      rw [outcome_noticed_some hnotice]
      rcases (logNotice notice).outcome w with ⟨_ | _, _⟩ <;> rfl
    rw [htold]
    cases hlog : w.log with
    | none =>
      rw [outcome_logNotice_none hlog]
      exact Wrote.refl w
    | some log =>
      have hwrote := logNotice_writes (h.resolve_right (by simp [hlog])) notice
      have hwrites : (settings.log.toList.map fun p => (p, w.logTaken
          (Utf8.encode (DecisionLog.line settings.logFull w.now notice ++ "\n")))) =
          (w.logWrites settings outcome).map fun write => (write.1, w.logTaken write.2) := by
        rw [logWrites, hnotice]
        cases settings.log <;> rfl
      rwa [hwrites] at hwrote

/-- What is to be written to a log that takes it is what is written. -/
lemma noticeWrites_of_takes (h : w.LogsTo settings) (htakes : w.TakesOutcome outcome) :
    w.noticeWrites settings outcome = w.logWrites settings outcome := by
  cases hlog : settings.log with
  | none =>
    rw [LogsTo, hlog] at h
    simp [noticeWrites, logWrites, h, hlog]
  | some p =>
    have hopen := h.isSome hlog
    rw [noticeWrites, if_pos hopen, logWrites, hlog]
    cases hnotice : outcome.notice? with
    | none => rfl
    | some notice =>
      have htaken := ((htakes notice hnotice).takesBytes h hlog).logTaken hopen
      simp only [List.map_cons, List.map_nil, htaken]

lemma notice_writes (h : w.LogsTo settings) (htakes : w.TakesOutcome outcome) :
    ∃ after, (noticed outcome).outcome w = (.ok outcome.answer, after) ∧
      w.Wrote (w.logWrites settings outcome) after := by
  obtain ⟨hresult, hwrote⟩ := notice_wrote (.inl h) outcome
  rw [noticeResult_of_takes htakes] at hresult
  rw [noticeWrites_of_takes h htakes] at hwrote
  exact ⟨_, Prod.ext hresult rfl, hwrote⟩

/-! ### Notices in two workspaces -/

/-- The same log is open at the same time, and it takes the same of what is noticed. -/
structure SameNotice (outcome : Outcome) (w v : Workspace) : Prop where
  log : v.log = w.log
  now : v.now = w.now
  refusal : ∀ notice log, outcome.notice? = some notice → w.log = some log →
    v.files.refusal? v.files.items log.place (w.noticeBytes log notice) =
      w.files.refusal? w.files.items log.place (w.noticeBytes log notice)

namespace SameNotice

variable {v : Workspace}

lemma noticeResult (h : SameNotice outcome w v) : v.noticeResult outcome = w.noticeResult outcome := by
  have hbytes : ∀ log notice, v.noticeBytes log notice = w.noticeBytes log notice := fun log notice => by
    rw [noticeBytes, noticeBytes, h.now]
  unfold Workspace.noticeResult
  rw [h.log]
  cases hnotice : outcome.notice? with
  | none => rfl
  | some notice =>
    cases hlog : w.log with
    | none => rfl
    | some log =>
      dsimp only
      rw [hbytes, h.refusal notice log hnotice hlog]

lemma logTaken {notice : Notice} {log : OpenLog} (h : SameNotice outcome w v)
    (hnotice : outcome.notice? = some notice) (hlog : w.log = some log) :
    v.logTaken (w.noticeBytes log notice) = w.logTaken (w.noticeBytes log notice) := by
  unfold Workspace.logTaken taken
  rw [h.log, hlog]
  dsimp only
  rw [h.refusal notice log hnotice hlog]

lemma noticeWrites (h : SameNotice outcome w v) (hlogs : w.LogsAtMost settings) :
    v.noticeWrites settings outcome = w.noticeWrites settings outcome := by
  unfold Workspace.noticeWrites Workspace.logWrites
  rw [h.log, h.now]
  split_ifs with hopen
  · have hlogsTo := hlogs.resolve_right (Option.isSome_iff_ne_none.mp hopen)
    rw [LogsTo] at hlogsTo
    cases hsettings : settings.log with
    | none => rfl
    | some p =>
      rw [hsettings] at hlogsTo
      obtain ⟨place, hlog, -⟩ := hlogsTo
      cases hnotice : outcome.notice? with
      | none => rfl
      | some notice =>
        have htaken := h.logTaken hnotice hlog
        rw [noticeBytes] at htaken
        simp only [List.map_cons, List.map_nil, htaken]
  · rfl

end SameNotice

end Workspace
end CommandWrap
