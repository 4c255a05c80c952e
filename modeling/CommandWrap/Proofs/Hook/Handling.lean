import Mathlib
import CommandWrap.Proofs.Hook.Writes
import CommandWrap.Proofs.Session.Refinement

/-! Handling of a payload in any state of the files. The record in the session may be refused, the log may
not be open; the answer and the line in an open log do not go by that. -/
namespace CommandWrap

open CommandWrap.Action FileSystem

variable {settings : Settings} {payload : Entries Json} {outcome : Outcome} {w after : Workspace}
  {session : Option Text} {written : List Write}

/-! ### Records that fail -/

namespace FileSystem

variable {fs after : FileSystem} {p : Path} {place : Place} {bytes : Bytes} {written : List Write}
  {now : Int}

/-- What a record of bytes writes to the file at a path: nothing, or the bytes as far as they are taken. -/
def IsRecord (fs : FileSystem) (p : Path) (bytes : Bytes) (written : List Write) : Prop :=
  written = [] ∨ ∃ part, part <+: bytes ∧ (fs.Willing → part = bytes) ∧ written = [(p, []), (p, part)]

/-- Adding to a file succeeds or is refused. -/
lemma append_cases (now : Int) (place : Place) (bytes : Bytes) (fs : FileSystem) :
    (fs.append now place bytes).2 = .ok () ∨
      ∃ error, (fs.append now place bytes).2 = .error error ∧ (Fault.file error).isRefusal = true := by
  rw [append]
  cases fs.refusal? fs.items place bytes with
  | none => exact .inl rfl
  | some refusal => exact .inr ⟨_, rfl, rfl⟩

/-- A record is made or refused, at a path with a name and where not too many directories are missing. -/
lemma record_cases {depth : Nat} (bytes : Bytes) (hp : p.IsNameable)
    (hshallow : ¬ fs.LacksTooMany depth p.parent) : ∃ after written,
      fs.IsRecord p bytes written ∧ fs.Takes written after ∧ (fs.record now depth p bytes = (after, .ok ()) ∨
        ∃ error, fs.record now depth p bytes = (after, .error error) ∧
          (Fault.file error).isRefusal = true) := by
  have hmakes := takes_makeDirectories now depth p.parent fs
  have hparent := mt (isFault_makeDirectories now depth p.parent fs).mp
    (not_or.mpr ⟨not_not_intro hp.parent, hshallow⟩)
  rw [record]
  rcases hmade : makeDirectories now depth p.parent fs with ⟨made, result⟩
  rw [hmade] at hmakes hparent
  cases result with
  | error error => exact ⟨made, [], .inl rfl, hmakes, .inr ⟨error, rfl, by simpa [IsFault] using hparent⟩⟩
  | ok _ =>
    have hfile := mt (isFault_openFile now p made).mp (not_not_intro hp)
    dsimp only
    cases hopen : openFile now p made with
    | error error =>
      rw [hopen] at hfile
      exact ⟨made, [], .inl rfl, hmakes, .inr ⟨error, rfl, by simpa [IsFault] using hfile⟩⟩
    | ok opened =>
      obtain ⟨place, files⟩ := opened
      obtain ⟨hopens, hlocate, hthere⟩ := takes_openFile hopen
      have htakes := hmakes.trans (hopens.trans (takes_append hlocate hthere now bytes))
      have hwilling : fs.Willing → files.taken place bytes = bytes := fun hwilling => by
        have hsame := (hmakes.trans hopens).refusal
        exact Willing.taken (fun items place bytes => by rw [hsame, hwilling]) place bytes
      refine ⟨(files.append now place bytes).1, _,
        .inr ⟨files.taken place bytes, taken_prefix files place bytes, hwilling, rfl⟩, htakes, ?_⟩
      rcases append_cases now place bytes files with hdone | ⟨error, hfails, hrefusal⟩
      · exact .inl (Prod.ext rfl hdone)
      · exact .inr ⟨error, Prod.ext rfl hfails, hrefusal⟩

end FileSystem

/-! ### Names of sessions -/

lemma CodePoint.IsVisible.isNameable {c : CodePoint} (hc : c.IsVisible) : c.IsNameable := by
  simp only [CodePoint.IsVisible] at hc
  simp only [CodePoint.IsNameable, CodePoint.isSurrogate, Bool.and_eq_false_iff, decide_eq_false_iff_not]
  omega

lemma Path.IsNameable.child {p : Path} (hp : p.IsNameable) {name : Text} (hname : name.IsVisible) :
    (p.child name).IsNameable := by
  intro part hpart c hc
  rw [parts_child] at hpart
  rcases List.mem_append.mp hpart with hpart | hpart
  · exact hp part hpart c hc
  · rw [List.mem_singleton.mp hpart] at hc
    exact (hname c hc).isNameable

/-- Whatever the identifier of a session is, its file has a name. -/
lemma Workspace.isNameable_session (hname : w.stateDirectory.IsNameable) (id : Text) :
    (Session.path w.sessionDirectory id).IsNameable := by
  have hsessions : w.sessionDirectory.IsNameable := hname.child (by decide)
  exact hsessions.child (Session.isVisible_fileName id)

/-! ### Recorded and logged -/

namespace Workspace

/-- The file of a session can be tried: the sessions have a name, and not too many directories are missing
above them. -/
structure TriesSessions (w : Workspace) : Prop where
  name : w.stateDirectory.IsNameable
  directories : ¬ w.files.LacksTooMany w.limits.sessions w.sessionDirectory

/-- What a call writes to its session: a line, as far as it is taken, or nothing. -/
def IsRecording (w : Workspace) (session : Option Text) (written : List Write) : Prop :=
  written = [] ∨ ∃ id line, session = some id ∧ Text.IsVisible line ∧
    w.files.IsRecord (Session.path w.sessionDirectory id) (Utf8.encode (line ++ "\n")) written

/-- A rewrite is recorded or refused, which is only reported. -/
lemma recordRewrite_wrote (htries : w.TriesSessions) (id command : Text) :
    ∃ recorded after, (recordRewrite id command).outcome w = (.ok (), after) ∧
      w.IsRecording (some id) recorded ∧ w.Wrote recorded after := by
  have hrun := outcome_recordRewrite id command w
  by_cases hkey : Tally.key command = []
  · rw [Session.record_blank hkey] at hrun
    exact ⟨[], w, hrun, .inl rfl, Wrote.refl w⟩
  · have hshallow : ¬ w.files.LacksTooMany w.limits.sessions (Session.path w.sessionDirectory id).parent := by
      rw [Session.path, parent_child]
      exact htries.directories
    rw [Session.record_eq hkey] at hrun
    obtain ⟨files, recorded, hrecord, htakes, hdone | ⟨error, hfails, hrefusal⟩⟩ := record_cases
      (Utf8.encode (Session.line w.now.toUtc (Tally.key command) ++ "\n"))
      (isNameable_session htries.name id) hshallow
    · rw [hdone] at hrun
      exact ⟨recorded, _, hrun, .inr ⟨id, _, rfl, Session.isVisible_line _ _, hrecord⟩,
        ⟨rfl, rfl, rfl, rfl⟩, htakes, rfl⟩
    · rw [hfails] at hrun
      dsimp only at hrun
      rw [if_pos hrefusal] at hrun
      exact ⟨recorded, _, hrun, .inr ⟨id, _, rfl, Session.isVisible_line _ _, hrecord⟩,
        ⟨rfl, rfl, rfl, rfl⟩, htakes, rfl⟩

lemma wrote_recorded (htries : session = none ∨ w.TriesSessions) (outcome : Outcome) :
    w.RecordPasses session outcome ∧
      ∃ written, w.IsRecording session written ∧ w.Wrote written (w.recorded session outcome) := by
  unfold RecordPasses recorded
  cases session with
  | none => exact ⟨by simp, [], .inl rfl, Wrote.refl w⟩
  | some id =>
    have hrecords := recordRewrite_wrote (htries.resolve_left (by simp)) id
    refine ⟨?_, ?_⟩
    · rintro _ command ⟨⟩ -
      obtain ⟨written, after, hrecord, -⟩ := hrecords command
      rw [hrecord]
    · cases outcome.recorded? with
      | none => exact ⟨[], .inl rfl, Wrote.refl w⟩
      | some command =>
        obtain ⟨written, after, hrecord, hrecording, hwrote⟩ := hrecords command
        dsimp only
        rw [hrecord]
        exact ⟨written, hrecording, hwrote⟩

end Workspace
end CommandWrap
