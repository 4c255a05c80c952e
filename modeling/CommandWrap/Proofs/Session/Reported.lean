import Mathlib
import CommandWrap.Proofs.CommandLine
import CommandWrap.Proofs.Session.Skipping
import CommandWrap.Proofs.Tally.Recorded

/-! The report on a session file of any content. It is made unless a line obstructs the file, and printed
unless standard output has no bytes for a key in it. -/
namespace CommandWrap

namespace Workspace

open CommandWrap.Action

variable {w : Workspace} {argument : Option Text} {id : Text}

/-- The argument of a report names the session; without one, it is the session that was written
last. -/
def Chooses (w : Workspace) (argument : Option Text) (id : Text) : Prop :=
  (argument = some id ∧ id ≠ []) ∨
    (argument.getD [] = [] ∧ Session.latest w.sessionDirectory w.files = .ok (some id))

/-- The report on a session is that on its account, or the fault at which the account is not
loaded. -/
lemma outcome_gain (h : w.Chooses argument id) : (gain argument).outcome w =
    match Session.load w.limits.session w.now.toUtc w.sessionDirectory id w.files with
    | .ok account => match Report.ofTally? account.startedAt w.now.toUtc account.tally with
      | some report => (.ok report, w)
      | none => (.error .timesDiffer, w)
    | .error fault => (.error fault, w) := by
  have hchosen : (gain argument).outcome w = (do
      let account ← Session.load w.limits.session w.now.toUtc w.sessionDirectory id w.files
      match Report.ofTally? account.startedAt w.now.toUtc account.tally with
      | some report => return report
      | none => throw .timesDiffer : Action Text).outcome w := by
    unfold gain
    rw [outcome_bind, outcome_get]
    dsimp only
    rcases h with ⟨rfl, hid⟩ | ⟨hnone, hlatest⟩
    · rw [Option.getD_some]
      split
      · exact absurd rfl hid
      · rfl
    · rw [hnone, hlatest]
      rfl
  rw [hchosen, outcome_bind, outcome_lift]
  cases Session.load w.limits.session w.now.toUtc w.sessionDirectory id w.files with
  | error fault => rfl
  | ok account =>
    dsimp only
    cases Report.ofTally? account.startedAt w.now.toUtc account.tally <;> rfl

lemma gain_of_load {account : Account} (h : w.Chooses argument id)
    (hload : Session.load w.limits.session w.now.toUtc w.sessionDirectory id w.files = .ok account)
    (hoffset : account.startedAt.offset.isSome = true) :
    (gain argument).outcome w = (.ok (Report.render
      (wholeMinutes (w.now.toUtc.instant - account.startedAt.instant)) account.tally), w) := by
  have helapsed : account.startedAt.elapsed? w.now.toUtc =
      some (w.now.toUtc.instant - account.startedAt.instant) := by
    rw [Stamp.elapsed?, hoffset]
    rfl
  rw [outcome_gain h, hload]
  dsimp only
  rw [Report.ofTally?, helapsed]
  rfl

lemma run_gain (arguments : List Text) (input : Text) (w : Workspace) :
    (CommandLine.run ("gain" :: arguments) input).outcome w =
      match (gain arguments.head?).outcome w with
      | (.ok report, after) => (CommandLine.print report).outcome after
      | (.error fault, after) => (.error fault, after) := by
  have hrun : CommandLine.run ("gain" :: arguments) input =
      (do CommandLine.print (← gain arguments.head?)) := by
    unfold CommandLine.run
    simp only [if_neg (show Text.ofString "gain" ≠ Text.ofString "explain" by decide), if_true]
  rw [hrun, outcome_bind]
  rcases (gain arguments.head?).outcome w with ⟨result, after⟩
  cases result <;> rfl

/-- The report on recorded commands can be printed if their keys can. -/
lemma prints_render_ofCommands (minutes : Nat) (commands : List Text) :
    w.Prints (Report.render minutes (Tally.ofCommands commands)) ↔
      ∀ command ∈ commands, w.Prints (Tally.key command) := by
  rw [Tally.ofCommands_eq_ofKeys]
  have hempty : (Tally.ofKeys (Tally.keysOf commands)).total = 0 →
      (Tally.ofKeys (Tally.keysOf commands)).counts = [] := fun htotal => by
    rw [List.length_eq_zero_iff.mp htotal]
    rfl
  rw [prints_render hempty, Tally.ofKeys]
  simp only [List.forall_mem_map, List.mem_eraseDups, Tally.mem_keysOf]
  constructor
  · intro h command hcommand
    by_cases hblank : Tally.key command = []
    · rw [hblank]
      exact List.forall_mem_nil _
    · exact h _ ⟨hblank, command, hcommand, rfl⟩
  · rintro h k ⟨-, command, hcommand, rfl⟩
    exact h command hcommand

/-- A session file of any text is loaded unless a line of it obstructs it: then every line that is a
rewrite counts once, and there is a report, which is printed unless standard output has no bytes for a key
in it. A line that obstructs the file is why it is not loaded, nor reported on. -/
theorem loads_iff_no_line_obstructs (limit : Json.Limit) {files : FileSystem} {directory : Path}
    {bytes : Bytes} {text : Text} (hread : files.read (Session.path directory id) = .ok bytes)
    (hdecode : Utf8.decode bytes = .ok text) :
    ((∀ line ∈ text.unifyLineEnds.splitLines, ¬ Session.Obstructs limit line) →
      ∃ tally : Tally, tally.total =
          text.unifyLineEnds.splitLines.countP (fun line => Session.IsRewrite limit line) ∧
        (∀ now, ∃ started, Session.load limit now directory id files = .ok ⟨started, tally⟩) ∧
        ∀ (w : Workspace) (arguments : List Text) (input : Text), w.files = files →
          w.sessionDirectory = directory → w.limits.session = limit → w.Chooses arguments.head? id →
          ((∀ line ∈ text.unifyLineEnds.splitLines, ∀ entry, Session.rewrite? limit line = some entry →
              w.Prints (Tally.key entry.2)) →
            ∃ minutes, (CommandLine.run ("gain" :: arguments) input).outcome w =
              (.ok (CommandLine.printed (Report.render minutes tally)), w)) ∧
          ((∃ line ∈ text.unifyLineEnds.splitLines, ∃ entry, Session.rewrite? limit line = some entry ∧
              ¬ w.Prints (Tally.key entry.2)) →
            ∃ error, (CommandLine.run ("gain" :: arguments) input).outcome w =
              (.error (.unprintable error), w))) ∧
    ((∃ line ∈ text.unifyLineEnds.splitLines, Session.Obstructs limit line) →
      ∃ line ∈ text.unifyLineEnds.splitLines, Session.Obstructs limit line ∧
        ∃ error, Json.parse limit line = .error error ∧
          (∀ now, Session.load limit now directory id files = .error (.json error)) ∧
          ∀ (w : Workspace) (arguments : List Text) (input : Text), w.files = files →
            w.sessionDirectory = directory → w.limits.session = limit → w.Chooses arguments.head? id →
            (CommandLine.run ("gain" :: arguments) input).outcome w = (.error (.json error), w)) := by
  have htext := Session.readText_of_bytes hread hdecode
  constructor
  · intro h
    have hload := Session.load_of_not_obstructs htext h
    refine ⟨_, Session.total_eq_countP _, fun now => ⟨_, hload now⟩, ?_⟩
    rintro w arguments input rfl rfl rfl hchoice
    have hnow : w.now.toUtc.offset.isSome = true := rfl
    have hgain := gain_of_load hchoice (hload w.now.toUtc) (Session.isSome_offset_accountOf _ hnow)
    have hrun := run_gain arguments input w
    rw [hgain] at hrun
    constructor
    · intro hkeys
      refine ⟨_, hrun.trans (CommandLine.outcome_print_of_prints ?_)⟩
      refine (prints_render_ofCommands _ _).mpr (List.forall_mem_map.mpr fun entry hentry => ?_)
      obtain ⟨line, hline, hentry⟩ := List.mem_filterMap.mp hentry
      exact hkeys line hline entry hentry
    · rintro ⟨line, hline, entry, hentry, hkey⟩
      obtain ⟨error, hprint⟩ := CommandLine.outcome_print_of_not_prints (mt
        (prints_render_ofCommands _ _).mp fun hkeys => hkey (hkeys entry.2 (List.mem_map_of_mem
          (List.mem_filterMap.mpr ⟨line, hline, hentry⟩))))
      exact ⟨error, hrun.trans hprint⟩
  · intro h
    obtain ⟨line, hmem, hline, error, hparse, hload⟩ := Session.load_of_obstructs htext h
    refine ⟨line, hmem, hline, error, hparse, hload, ?_⟩
    rintro w arguments input rfl rfl rfl hchoice
    rw [run_gain, outcome_gain hchoice, hload]

/-! ### A file with a stray line, one with a strange key, and one with a long number -/

/-- A workspace whose only session has these lines. -/
def keeping (parts : List Text) : Workspace :=
  { files := { items := [(["h"], ⟨.directory, 0⟩), (["h", "sessions"], ⟨.directory, 0⟩),
      (["h", "sessions", "a.jsonl"], ⟨.file (Utf8.encode (Text.ofLines parts)), 0⟩)] }
    homes := { own := "/h" }, stateDirectory := ⟨1, ["h"]⟩, now := ⟨⟨2026, 10, 17⟩, 0, some 0⟩ }

def sampleLine (key : Text) : Text := Session.line ⟨⟨2026, 10, 17⟩, 0, some 0⟩ key

def strayLines : List Text := ["x", sampleLine "ls"]

/-- Standard output has no bytes for its second word. -/
def strangeKey : Text := Text.ofString "ls " ++ [⟨0xD800, by decide⟩]

def longNumber : Text := List.replicate (Json.maxIntegerDigits + 1) (CodePoint.ofChar '1')

lemma read_keeping (parts : List Text) : (keeping parts).files.read
    (Session.path (keeping parts).sessionDirectory "a") = .ok (Utf8.encode (Text.ofLines parts)) := by
  cbv

lemma chooses_keeping (parts : List Text) : (keeping parts).Chooses (some "a") "a" :=
  .inl ⟨rfl, by decide⟩

section

variable {key : Text}

lemma not_obstructs_sampleLine (hkey : key.Joined) : ¬ Session.Obstructs {} (sampleLine key) := by
  simp [Session.Obstructs, sampleLine, Session.parse_line {} _ hkey]

lemma rewrite?_sampleLine (hkey : key.Joined) (hblank : key.isBlank = false) :
    Session.rewrite? {} (sampleLine key) = some (⟨⟨2026, 10, 17⟩, 0, some 0⟩, key) := by
  have htime : Stamp.Valid ⟨⟨2026, 10, 17⟩, 0, some 0⟩ := by
    refine ⟨by decide, by decide, fun o ho => ?_⟩
    obtain rfl := Option.some.inj ho
    decide
  have hread : Session.readLine {} (sampleLine key) = _ := Session.readLine_line htime rfl hkey hblank
  exact Except.ok.inj ((Session.readLine_of_not_obstructs (not_obstructs_sampleLine hkey)).symm.trans hread)

end

lemma not_obstructs_strayLines : ∀ line ∈ strayLines, ¬ Session.Obstructs {} line := by
  simp only [strayLines, List.forall_mem_cons]
  exact ⟨Session.skipped_stray.1, not_obstructs_sampleLine (by decide), by simp⟩

lemma countP_strayLines : strayLines.countP (fun line => Session.IsRewrite {} line) = 1 := by
  have hstray : ¬ Session.IsRewrite {} "x" := by
    rw [← Session.isSome_rewrite?_iff, Session.skipped_stray.2]
    exact Bool.false_ne_true
  have hsample : Session.IsRewrite {} (sampleLine "ls") := by
    rw [← Session.isSome_rewrite?_iff, rewrite?_sampleLine (by decide) (by decide)]
    rfl
  simp [strayLines, hstray, hsample]

lemma prints_strayLines {parts : List Text} : ∀ line ∈ strayLines, ∀ entry,
    Session.rewrite? {} line = some entry → (keeping parts).Prints (Tally.key entry.2) := by
  simp only [strayLines, List.forall_mem_cons]
  refine ⟨fun entry hentry => ?_, fun entry hentry => ?_, by simp⟩
  · rw [Session.skipped_stray.2] at hentry
    cases hentry
  · rw [rewrite?_sampleLine (by decide) (by decide)] at hentry
    obtain rfl := Option.some.inj hentry
    exact prints_of_isScalar (by decide)

/-- A stray line is passed over, and the rewrite behind it is reported; a key without bytes keeps the
report from being printed, and a number that is too long keeps it from being made. -/
theorem loads_iff_no_line_obstructs_stray :
    (∃ tally : Tally, tally.total = 1 ∧ ∃ minutes,
      (CommandLine.run ["gain", "a"] []).outcome (keeping strayLines) =
        (.ok (CommandLine.printed (Report.render minutes tally)), keeping strayLines)) ∧
    (∃ error, (CommandLine.run ["gain", "a"] []).outcome (keeping [sampleLine strangeKey]) =
      (.error (.unprintable error), keeping [sampleLine strangeKey])) ∧
    ∃ error, (CommandLine.run ["gain", "a"] []).outcome (keeping [longNumber]) =
      (.error (.json error), keeping [longNumber]) := by
  refine ⟨?_, ?_, ?_⟩
  · have hvisible : ∀ line ∈ strayLines, Text.IsVisible line := by
      simp only [strayLines, List.forall_mem_cons]
      exact ⟨by decide, Session.isVisible_line _ _, by simp⟩
    obtain ⟨text, hdecode, hlines⟩ := map_eq_ok (Text.lines_of_bytes hvisible)
    have hresult := loads_iff_no_line_obstructs {} (read_keeping strayLines) hdecode
    rw [hlines, countP_strayLines] at hresult
    obtain ⟨tally, htotal, -, hgain⟩ := hresult.1 not_obstructs_strayLines
    exact ⟨tally, htotal,
      (hgain _ [Text.ofString "a"] [] rfl rfl rfl (chooses_keeping _)).1 prints_strayLines⟩
  · have hkey : strangeKey.Joined ∧ strangeKey.isBlank = false := by decide
    have hunprintable : ¬ (keeping [sampleLine strangeKey]).Prints (Tally.key strangeKey) := fun h =>
      Bool.false_ne_true (h ⟨0xD800, by decide⟩ (by decide) (by decide))
    have hvisible : ∀ line ∈ [sampleLine strangeKey], Text.IsVisible line :=
      List.forall_mem_singleton.mpr (Session.isVisible_line _ _)
    obtain ⟨text, hdecode, hlines⟩ := map_eq_ok (Text.lines_of_bytes hvisible)
    have hresult := loads_iff_no_line_obstructs {} (read_keeping [sampleLine strangeKey]) hdecode
    rw [hlines] at hresult
    obtain ⟨tally, -, -, hgain⟩ := hresult.1 (by simpa using not_obstructs_sampleLine hkey.1)
    exact (hgain _ [Text.ofString "a"] [] rfl rfl rfl (chooses_keeping _)).2
      ⟨_, List.mem_singleton_self _, _, rewrite?_sampleLine hkey.1 hkey.2, hunprintable⟩
  · have hdigits : ∀ c ∈ longNumber, c = CodePoint.ofChar '1' := fun c => List.eq_of_mem_replicate
    have hvisible : ∀ line ∈ [longNumber], Text.IsVisible line := by
      rintro line hline c hc
      rw [List.mem_singleton.mp hline] at hc
      rw [hdigits c hc]
      decide
    have hobstructs : Session.Obstructs {} longNumber := by
      rw [longNumber, List.replicate_succ] at hdigits ⊢
      refine Session.obstructs_of_digits (by decide) (fun c hc => by rw [hdigits c hc]; rfl) ?_
      rw [List.length_cons, List.length_replicate]
      exact Nat.lt_succ_self _
    obtain ⟨text, hdecode, hlines⟩ := map_eq_ok (Text.lines_of_bytes hvisible)
    have hresult := loads_iff_no_line_obstructs {} (read_keeping [longNumber]) hdecode
    rw [hlines] at hresult
    obtain ⟨line, -, -, error, -, -, hgain⟩ :=
      hresult.2 ⟨longNumber, List.mem_singleton_self _, hobstructs⟩
    exact ⟨error, hgain _ [Text.ofString "a"] [] rfl rfl rfl (chooses_keeping _)⟩

end Workspace
end CommandWrap
