import Mathlib
import CommandWrap.Proofs.FileSystem.Recording
import CommandWrap.Proofs.Session.Line
import CommandWrap.Proofs.Text.Lines

/-! The files of the sessions stand for tallies in memory: after any calls on any sessions, a session
is loaded as the tally of the commands that were recorded in it. -/
namespace CommandWrap.Session

open FileSystem

/-! ### File names -/

def fileName (id : Text) : Text := safeId id ++ suffix

lemma path_eq (directory : Path) (id : Text) : path directory id = directory.child (fileName id) := rfl

lemma fileName_inj {a b : Text} : fileName a = fileName b ↔ safeId a = safeId b :=
  List.append_left_inj suffix

lemma isVisible_of_isSafe {c : CodePoint} (hc : isSafe c = true) : c.IsVisible := by
  simp only [isSafe, CodePoint.isDigit, Bool.or_eq_true, Bool.and_eq_true, decide_eq_true_eq] at hc
  rcases hc with (((hc | hc) | hc) | rfl) | rfl
  · simp only [CodePoint.IsVisible]
    omega
  · simp only [CodePoint.IsVisible]
    omega
  · simp only [CodePoint.IsVisible]
    omega
  · decide
  · decide

lemma isVisible_fileName (id : Text) : (fileName id).IsVisible := by
  refine Text.isVisible_append.mpr ⟨?_, by decide⟩
  rw [safeId]
  split_ifs
  · decide
  · intro c hc
    obtain ⟨d, -, rfl⟩ := List.mem_map.mp hc
    split_ifs with hd
    · exact isVisible_of_isSafe hd
    · decide

lemma fileName_ne_parent (id : Text) : fileName id ≠ ".." := by
  intro h
  have := congrArg List.length h
  rw [fileName, List.length_append] at this
  have hsuffix : suffix.length = 6 := rfl
  have hparent : (Text.ofString "..").length = 2 := rfl
  omega

/-! ### Runs -/

/-- A rewrite that is to be recorded; `instant` is when its file is written. -/
structure Call where
  id : Text
  command : Text
  time : Stamp
  instant : Int

/-- One call after the other, up to the first that fails. -/
def recordAll (depth : Nat) (directory : Path) : List Call → FileSystem → FileSystem × Except FileError Unit
  | [], files => (files, .ok ())
  | call :: more, files =>
    match record call.instant depth directory call.id call.time call.command files with
    | (files, .ok ()) => recordAll depth directory more files
    | (files, .error e) => (files, .error e)

/-- The calls on one session. -/
def callsOf (id : Text) (calls : List Call) : List Call :=
  calls.filter fun call => safeId call.id = safeId id

/-- What these calls record. -/
def entriesOf (calls : List Call) : List (Stamp × Text) :=
  (calls.filter fun call => Tally.key call.command ≠ []).map fun call =>
    (call.time, Tally.key call.command)

/-- Once the directory is made, nothing stands where a session would have its file. -/
def Unused (directory : Path) (files : FileSystem) : Prop :=
  ∀ now depth made place, makeDirectories now depth directory files = (made, .ok ()) →
    made.IsDirectoryAt directory place → ∀ id, made.content? (place ++ [fileName id]) = none

/-- A call whose command and time can be written down: surrogates are joined as far as they can be,
and the time has an offset. -/
structure Call.IsRecordable (call : Call) : Prop where
  joined : call.command.Joined
  valid : call.time.Valid
  offset : call.time.offset.isSome = true

/-! ### What the files hold -/

/-- The file of a session that recorded these rewrites. -/
def contentOf : List (Stamp × Text) → Option Content
  | [] => none
  | first :: more => some (.file (Utf8.encode (Text.ofLines
      ((first :: more).map fun entry => line entry.1 entry.2))))

/-- Every session has a line in its file for each of its rewrites. -/
structure Holds (directory : Path) (calls : List Call) (files : FileSystem) (place : Place) : Prop where
  isDirectoryAt : files.IsDirectoryAt directory place
  content : ∀ id, files.content? (place ++ [fileName id]) = contentOf (entriesOf (callsOf id calls))

variable {limit : Json.Limit} {depth : Nat} {directory : Path} {files initial after : FileSystem}
  {calls : List Call} {place : Place}

lemma bytesAt_of_content {entries : List (Stamp × Text)} (h : files.content? place = contentOf entries) :
    files.bytesAt place =
      Utf8.encode (Text.ofLines (entries.map fun entry => line entry.1 entry.2)) := by
  rw [bytesAt, h]
  cases entries <;> rfl

lemma isFree_of_content {entries : List (Stamp × Text)} (h : files.content? place = contentOf entries) :
    files.IsFree place := by
  intro content hcontent
  rw [h] at hcontent
  cases entries with
  | nil => simp [contentOf] at hcontent
  | cons first more => exact ⟨_, (Option.some.inj hcontent).symm⟩

lemma contentOf_append (entries : List (Stamp × Text)) (time : Stamp) (key : Text) :
    contentOf (entries ++ [(time, key)]) = some (.file
      (Utf8.encode (Text.ofLines (entries.map fun entry => line entry.1 entry.2)) ++
        Utf8.encode (line time key ++ "\n"))) := by
  have hlines : Text.ofLines ((entries ++ [(time, key)]).map fun entry => line entry.1 entry.2) =
      Text.ofLines (entries.map fun entry => line entry.1 entry.2) ++ (line time key ++ "\n") := by
    rw [List.map_append, Text.ofLines_append]
    simp [Text.ofLines]
  rw [← Utf8.encode_append, ← hlines]
  cases entries <;> rfl

lemma callsOf_append (id : Text) (calls : List Call) (call : Call) :
    callsOf id (calls ++ [call]) =
      if safeId call.id = safeId id then callsOf id calls ++ [call] else callsOf id calls := by
  rw [callsOf, List.filter_append, List.filter_singleton]
  split_ifs with h <;> simp [callsOf, h]

lemma entriesOf_append (calls : List Call) (call : Call) :
    entriesOf (calls ++ [call]) =
      if Tally.key call.command = [] then entriesOf calls
      else entriesOf calls ++ [(call.time, Tally.key call.command)] := by
  rw [entriesOf, List.filter_append, List.filter_singleton]
  split_ifs with h <;> simp [entriesOf, h]

/-! ### One call -/

lemma entriesOf_blank (h : ∀ call ∈ calls, Tally.key call.command = []) (id : Text) :
    entriesOf (callsOf id calls) = [] := by
  have hblank : ∀ call ∈ callsOf id calls, Tally.key call.command = [] := fun call hcall =>
    h call (List.mem_of_mem_filter hcall)
  rw [entriesOf, List.map_eq_nil_iff, List.filter_eq_nil_iff]
  simpa using hblank

/-- A line more in one file is what a call adds. -/
lemma Holds.append {made : FileSystem} (h : Holds directory calls made place) {call : Call}
    (hkey : Tally.key call.command ≠ []) (hdirectory : after.IsDirectoryAt directory place)
    (hcontent : ∀ other, after.content? other = if other = place ++ [fileName call.id] then
      some (.file (made.bytesAt (place ++ [fileName call.id]) ++
        Utf8.encode (line call.time (Tally.key call.command) ++ "\n")))
      else made.content? other) :
    Holds directory (calls ++ [call]) after place := by
  refine ⟨hdirectory, fun id => ?_⟩
  rw [hcontent, callsOf_append]
  by_cases hid : safeId call.id = safeId id
  · have hname : fileName id = fileName call.id := fileName_inj.mpr hid.symm
    rw [if_pos hid, hname, if_pos rfl, entriesOf_append, if_neg hkey, contentOf_append,
      bytesAt_of_content (hname ▸ h.content id)]
  · rw [if_neg hid, if_neg, h.content]
    intro heq
    exact hid (fileName_inj.mp (by simpa using heq.symm))

/-- Nothing was written yet, or the files hold what was recorded. -/
def Kept (directory : Path) (initial : FileSystem) (calls : List Call) (files : FileSystem) : Prop :=
  (files = initial ∧ ∀ call ∈ calls, Tally.key call.command = []) ∨
    ∃ place id, Holds directory calls files place ∧ checkPath (path directory id) = .ok ()

lemma kept_record (hunused : Unused directory initial) (h : Kept directory initial calls files)
    {call : Call} (hrecord :
      record call.instant depth directory call.id call.time call.command files = (after, .ok ())) :
    Kept directory initial (calls ++ [call]) after := by
  by_cases hkey : Tally.key call.command = []
  · rw [record_blank hkey] at hrecord
    obtain rfl : files = after := (Prod.mk.inj hrecord).1
    rcases h with ⟨rfl, hblank⟩ | ⟨place, id, hholds, hcheck⟩
    · refine .inl ⟨rfl, fun c hc => ?_⟩
      rcases List.mem_append.mp hc with hc | hc
      · exact hblank c hc
      · rwa [List.mem_singleton.mp hc]
    · refine .inr ⟨place, id, ⟨hholds.isDirectoryAt, fun other => ?_⟩, hcheck⟩
      rw [hholds.content, callsOf_append]
      split_ifs
      · rw [entriesOf_append, if_pos hkey]
      · rfl
  · rw [record_eq hkey, path_eq] at hrecord
    obtain ⟨made, place, hmake, hcheck, hdirectory, -, hafter⟩ :=
      record_child hrecord (fileName_ne_parent call.id)
    have hmade : Holds directory calls made place := by
      rcases h with ⟨rfl, hblank⟩ | ⟨standing, id, hholds, -⟩
      · refine ⟨hdirectory, fun id => ?_⟩
        rw [hunused _ _ made place hmake hdirectory id, entriesOf_blank hblank]
        rfl
      · obtain ⟨rfl, rfl⟩ := hholds.isDirectoryAt.eq_of_makeDirectories hmake hdirectory
        exact hholds
    obtain ⟨hstands, hcontent⟩ := hafter (isFree_of_content (hmade.content call.id))
    exact .inr ⟨place, call.id, hmade.append hkey hstands hcontent, hcheck⟩

/-- What one call keeps, a run keeps. -/
theorem recordAll_induction {P : List Call → FileSystem → Prop}
    (step : ∀ {done : List Call} {call : Call} {files after : FileSystem}, P done files →
      record call.instant depth directory call.id call.time call.command files = (after, .ok ()) →
      P (done ++ [call]) after)
    {done : List Call} (h : P done files) (hrecord : recordAll depth directory calls files = (after, .ok ())) :
    P (done ++ calls) after := by
  induction calls generalizing done files with
  | nil =>
    obtain rfl : files = after := (Prod.mk.inj hrecord).1
    rwa [List.append_nil]
  | cons call calls ih =>
    rw [recordAll] at hrecord
    rcases hone : record call.instant depth directory call.id call.time call.command files
      with ⟨changed, outcome⟩
    rw [hone] at hrecord
    cases outcome with
    | error e => simp at hrecord
    | ok _ =>
      have := ih (step h hone) hrecord
      rwa [List.append_assoc, List.singleton_append] at this

lemma kept_recordAll (hunused : Unused directory initial) {done : List Call}
    (h : Kept directory initial done files)
    (hrecord : recordAll depth directory calls files = (after, .ok ())) :
    Kept directory initial (done ++ calls) after :=
  recordAll_induction (P := Kept directory initial)
    (fun hkept hone => kept_record hunused hkept hone) h hrecord

/-! ### Loading -/

/-- The account that the commands of these calls make up in memory. -/
def accountOfCalls (now : Stamp) (calls : List Call) : Account :=
  ⟨((calls.find? fun call => Tally.key call.command ≠ []).map fun call =>
    { call.time with offset := call.time.offset.map Stamp.readOffset }).getD now,
    Tally.ofCommands (calls.map (·.command))⟩

lemma accountOf_entriesOf (now : Stamp) (calls : List Call) :
    accountOf now ((entriesOf calls).map readBack) = accountOfCalls now calls := by
  have hkeys : ((entriesOf calls).map readBack).map (·.2) =
      ((calls.map (·.command)).filter fun c => Tally.key c ≠ []).map Tally.key := by
    rw [entriesOf, List.filter_map]
    simp [readBack, Function.comp_def]
  have hfirst : ((entriesOf calls).map readBack).head?.map (·.1) =
      (calls.find? fun call => Tally.key call.command ≠ []).map fun call =>
        { call.time with offset := call.time.offset.map Stamp.readOffset } := by
    rw [entriesOf, ← List.head?_filter]
    simp [readBack, Function.comp_def]
  rw [accountOf, hkeys, hfirst, Tally.ofCommands_keys, accountOfCalls]

lemma isEntry_of_mem (hcalls : ∀ call ∈ calls, call.IsRecordable) {entry : Stamp × Text}
    (hentry : entry ∈ entriesOf calls) : IsEntry entry := by
  obtain ⟨call, hcall, rfl⟩ := List.mem_map.mp hentry
  obtain ⟨hmem, hkey⟩ := List.mem_filter.mp hcall
  have := hcalls call hmem
  exact ⟨this.valid, this.offset, Tally.joined_key this.joined,
    Tally.isBlank_key (by simpa using hkey)⟩

lemma readText_of_locate {p : Path} (h : files.locate true p = .ok place) {lines : List Text}
    (hlines : ∀ line ∈ lines, line.IsVisible)
    (hcontent : files.content? place = some (.file (Utf8.encode (Text.ofLines lines)))) :
    ∃ text, files.readText p = .ok text ∧ text.splitLines = lines := by
  have hbytes := Text.lines_of_bytes hlines
  cases hdecode : Utf8.decode (Utf8.encode (Text.ofLines lines)) with
  | error e => simp [hdecode, Except.map] at hbytes
  | ok text =>
    rw [hdecode] at hbytes
    refine ⟨text.unifyLineEnds, ?_, Except.ok.inj hbytes⟩
    rw [readText, read_of_locate h hcontent]
    simp only [Except.mapError, bind, Except.bind, hdecode]
    rfl

lemma load_of_content (limit : Json.Limit) {id : Text}
    (hlocate : files.locate true (path directory id) = .ok place)
    {entries : List (Stamp × Text)} (hentries : ∀ entry ∈ entries, IsEntry entry)
    (hcontent : files.content? place = contentOf entries) (now : Stamp) :
    load limit now directory id files = .ok (accountOf now (entries.map readBack)) := by
  rw [load, isFile_of_locate hlocate, hcontent]
  cases entries with
  | nil => rfl
  | cons first more =>
    have hvisible : ∀ t ∈ (first :: more).map fun entry => line entry.1 entry.2, t.IsVisible := by
      intro t ht
      obtain ⟨entry, -, rfl⟩ := List.mem_map.mp ht
      exact isVisible_line _ _
    obtain ⟨text, htext, hsplit⟩ := readText_of_locate hlocate hvisible hcontent
    have hlines := readLines_lines limit hentries
    rw [← hsplit] at hlines
    simp only [contentOf, Option.any_some, Content.isFile, Except.mapError, bind, Except.bind, htext,
      hlines, if_true]
    rfl

/-- A session is loaded as the account of the commands that were recorded in it, in their order;
what was recorded in other sessions has no part in it. -/
theorem load_recordAll (hunused : Unused directory initial)
    (hcalls : ∀ call ∈ calls, call.IsRecordable)
    (hrecord : recordAll depth directory calls initial = (after, .ok ())) {id : Text}
    (hmissing : initial.isFile (path directory id) = .ok false)
    (hlength : byteLength (fileName id) ≤ maxNameLength) (now : Stamp) :
    load limit now directory id after = .ok (accountOfCalls now (callsOf id calls)) := by
  have hkept : Kept directory initial ([] ++ calls) after :=
    kept_recordAll hunused (.inl ⟨rfl, by simp⟩) hrecord
  rw [List.nil_append] at hkept
  rw [← accountOf_entriesOf]
  rcases hkept with ⟨rfl, hblank⟩ | ⟨place, other, hholds, hcheck⟩
  · rw [load, hmissing, entriesOf_blank hblank]
    rfl
  · have hcontent := hholds.content id
    have hlocate : after.locate true (path directory id) = .ok (place ++ [fileName id]) :=
      locate_child hholds.isDirectoryAt (checkPath_child hcheck (isVisible_fileName id) hmissing)
        (fileName_ne_parent id) hlength (isFree_of_content hcontent)
    refine load_of_content limit hlocate (fun entry hentry => isEntry_of_mem (fun call hcall => ?_) hentry)
      hcontent now
    exact hcalls call (List.mem_of_mem_filter hcall)

/-! ### One call below the root -/

def sampleDirectory : Path := ⟨1, ["s"]⟩

def sampleCall (offset : Int) : Call := ⟨"a", "ls x", ⟨⟨2026, 10, 17⟩, 0, some offset⟩, 0⟩

def sampleNow : Stamp := ⟨⟨2026, 10, 18⟩, 0, some 0⟩

def longId : Text := List.replicate 300 (CodePoint.ofChar 'a')

lemma unused_sample : Unused sampleDirectory {} := by
  intro now depth made place hmake hplace id
  have hmade : makeDirectories now depth sampleDirectory {} =
      ({ items := [([Text.ofString "s"], ⟨.directory, now⟩)] }, .ok ()) := by
    cases depth <;> cbv
  rw [hmade] at hmake
  obtain rfl : _ = made := (Prod.mk.inj hmake).1
  have hthere : FileSystem.follow { items := [([Text.ofString "s"], ⟨.directory, now⟩)] } true maxLinks []
      [Text.ofString "s"] = .ok [Text.ofString "s"] := by
    cbv
  obtain rfl : [Text.ofString "s"] = place := Except.ok.inj (hthere.symm.trans hplace.1)
  simp [content?, item?, List.lookup]

lemma isRecordable_sample : (sampleCall 0).IsRecordable := by
  refine ⟨by decide, ⟨by decide, by decide, ?_⟩, rfl⟩
  intro o ho
  obtain rfl := Option.some.inj ho
  decide

theorem load_recordAll_sample : ∃ after,
    recordAll 970 sampleDirectory [sampleCall 0] {} = (after, .ok ()) ∧
      load {} sampleNow sampleDirectory "a" after =
        .ok (accountOfCalls sampleNow (callsOf "a" [sampleCall 0])) := by
  have hcalls : ∀ call ∈ [sampleCall 0], call.IsRecordable := by
    intro call hcall
    rw [List.mem_singleton.mp hcall]
    exact isRecordable_sample
  have hrecord : recordAll 970 sampleDirectory [sampleCall 0] {} =
      ((recordAll 970 sampleDirectory [sampleCall 0] {}).1, .ok ()) := by cbv
  exact ⟨_, hrecord, load_recordAll unused_sample hcalls hrecord (by cbv) (by decide) sampleNow⟩

set_option maxRecDepth 8000 in
/-- A name that is too long for a file is refused, and an offset of less than a second is lost. -/
theorem load_recordAll_limits :
    (∃ after, recordAll 970 sampleDirectory [sampleCall 0] {} = (after, .ok ()) ∧
      load {} sampleNow sampleDirectory longId after =
        .error (.file (.refused .nameTooLong (path sampleDirectory longId)))) ∧
    (∃ after account, recordAll 970 sampleDirectory [sampleCall 1] {} = (after, .ok ()) ∧
      load {} sampleNow sampleDirectory "a" after = .ok account ∧
        account.startedAt.instant ≠ (sampleCall 1).time.instant) := by
  constructor
  · exact ⟨(recordAll 970 sampleDirectory [sampleCall 0] {}).1, by cbv, by cbv⟩
  · refine ⟨(recordAll 970 sampleDirectory [sampleCall 1] {}).1,
      accountOfCalls sampleNow [sampleCall 1], by cbv, ?_, by decide⟩
    cbv

end CommandWrap.Session
