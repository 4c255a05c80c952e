import Mathlib
import CommandWrap.Proofs.Session.Latest
import CommandWrap.Proofs.Session.Timestamps

/-! What calls record is found again: they leave the files of their sessions in the directory, and the
report without an argument goes to the latest of them. -/
namespace CommandWrap

/-! ### Reports -/

namespace Workspace

open CommandWrap.Action Session

variable {w : Workspace} {id : Text}

/-- Without an argument, the report is the one that the latest session gets under any of its
identifiers. -/
lemma gain_none_eq (hlatest : Session.latest w.sessionDirectory w.files = .ok (some id)) {other : Text}
    (hpath : path w.sessionDirectory other = path w.sessionDirectory id) :
    (gain none).outcome w = (gain (some other)).outcome w := by
  by_cases hother : other = []
  · subst hother
    rfl
  · rw [outcome_gain (.inr ⟨rfl, hlatest⟩), outcome_gain (.inl ⟨rfl, hother⟩), load_congr hpath]

/-- Without an argument, the commands are counted that were recorded in the latest session. -/
lemma gain_none_of_holds {calls : List Call} {place : Place}
    (hlatest : Session.latest w.sessionDirectory w.files = .ok (some id))
    (hlocate : w.files.locate true (path w.sessionDirectory id) = .ok (place ++ [fileName id]))
    (hholds : w.files.content? (place ++ [fileName id]) = contentOf (entriesOf (callsOf id calls)))
    (hcalls : ∀ call ∈ calls, call.IsRecordable) :
    ∃ minutes, (gain none).outcome w =
      (.ok (Report.render minutes (Tally.ofCommands ((callsOf id calls).map (·.command)))), w) := by
  have hentries : ∀ entry ∈ entriesOf (callsOf id calls), IsEntry entry := fun entry hentry =>
    isEntry_of_mem (fun call hcall => hcalls call (List.mem_of_mem_filter hcall)) hentry
  have hload := load_of_content w.limits.session hlocate hentries hholds w.now.toUtc
  rw [accountOf_entriesOf] at hload
  exact ⟨_, gain_of_load (.inr ⟨rfl, hlatest⟩) hload (isSome_offset_of_load rfl hload)⟩

end Workspace

namespace Session

open FileSystem

variable {depth : Nat} {directory : Path} {files initial made after : FileSystem} {calls done : List Call}
  {place : Place} {ids : List Text}

/-! ### Runs -/

/-- The sessions in which these calls record a rewrite. -/
def recordedIds (calls : List Call) : List Text :=
  (calls.filter fun call => Tally.key call.command ≠ []).map (·.id)

/-- Once the directory is made, nothing in it is named like a session file. -/
def Vacant (directory : Path) (files : FileSystem) : Prop :=
  ∀ now depth made place, makeDirectories now depth directory files = (made, .ok ()) →
    made.IsDirectoryAt directory place → ∀ name ∈ made.namesIn place, ¬ suffix <:+ name

lemma Vacant.unused (h : Vacant directory initial) : Unused directory initial := by
  intro now depth made place hmake hplace id
  by_contra hsome
  exact h now depth made place hmake hplace _ (mem_namesIn_iff.mpr (Option.isSome_iff_ne_none.mpr hsome))
    (List.suffix_append _ _)

lemma recordedIds_append (calls : List Call) (call : Call) :
    recordedIds (calls ++ [call]) =
      if Tally.key call.command = [] then recordedIds calls else recordedIds calls ++ [call.id] := by
  rw [recordedIds, List.filter_append, List.filter_singleton]
  split_ifs with h <;> simp [recordedIds, h]

/-- A record adds the file of its session, if that is not there yet. -/
lemma HasSessions.append (h : HasSessions directory made place ids) {id : Text} {bytes : Bytes}
    (hrecorded : IsRecorded directory id) (hdirectory : after.IsDirectoryAt directory place)
    (hcontent : ∀ other, after.content? other =
      if other = place ++ [fileName id] then some (.file bytes) else made.content? other) :
    HasSessions directory after place (ids ++ [id]) where
  isDirectoryAt := hdirectory
  listed name hname hsuffix := by
    rw [mem_namesIn_iff, hcontent] at hname
    split_ifs at hname with hsame
    · exact ⟨id, by simp, by simpa using hsame⟩
    · obtain ⟨other, hother, hfound⟩ := h.listed name (mem_namesIn_iff.mpr hname) hsuffix
      exact ⟨other, List.mem_append_left _ hother, hfound⟩
  hasFile other hother := by
    by_cases hsame : place ++ [fileName other] = place ++ [fileName id]
    · exact ⟨bytes, by rw [hcontent, if_pos hsame]⟩
    · rcases List.mem_append.mp hother with hother | hother
      · obtain ⟨held, hheld⟩ := h.hasFile other hother
        exact ⟨held, by rw [hcontent, if_neg hsame, hheld]⟩
      · exact absurd (by rw [List.mem_singleton.mp hother]) hsame
  recorded other hother := by
    rcases List.mem_append.mp hother with hother | hother
    · exact h.recorded other hother
    · exact List.mem_singleton.mp hother ▸ hrecorded

lemma HasSessions.isFree (h : HasSessions directory files place ids) (id : Text) :
    files.IsFree (place ++ [fileName id]) := by
  intro content hcontent
  have hmem : fileName id ∈ files.namesIn place := mem_namesIn_iff.mpr (by rw [hcontent]; rfl)
  obtain ⟨other, hother, hname⟩ := h.listed _ hmem (List.suffix_append _ _)
  exact (h.hasFile other hother).isFree content (hname ▸ hcontent)

/-- Nothing was written yet, or the directory has the sessions in which a rewrite was recorded. -/
def Shelved (directory : Path) (initial : FileSystem) (calls : List Call) (files : FileSystem) : Prop :=
  (files = initial ∧ recordedIds calls = []) ∨
    ∃ place, HasSessions directory files place (recordedIds calls)

lemma shelved_record (hvacant : Vacant directory initial) (h : Shelved directory initial done files)
    {call : Call} (hrecord :
      record call.instant depth directory call.id call.time call.command files = (after, .ok ())) :
    Shelved directory initial (done ++ [call]) after := by
  by_cases hkey : Tally.key call.command = []
  · rw [record_blank hkey] at hrecord
    obtain rfl : files = after := (Prod.mk.inj hrecord).1
    rwa [Shelved, recordedIds_append, if_pos hkey]
  · -- The directory is made by the first record and stands from then on.
    have hrecorded : IsRecorded directory call.id := ⟨call, depth, files, after, rfl, hkey, hrecord⟩
    rw [record_eq hkey, path_eq] at hrecord
    obtain ⟨made, place, hmake, -, hdirectory, -, hafter⟩ :=
      record_child hrecord (fileName_ne_parent call.id)
    have hmade : HasSessions directory made place (recordedIds done) := by
      rcases h with ⟨rfl, hnone⟩ | ⟨standing, hsessions⟩
      · rw [hnone]
        have hnames := hvacant _ _ made place hmake hdirectory
        exact ⟨hdirectory, fun name hname hsuffix => absurd hsuffix (hnames name hname), by simp, by simp⟩
      · obtain ⟨rfl, rfl⟩ := hsessions.isDirectoryAt.eq_of_makeDirectories hmake hdirectory
        exact hsessions
    obtain ⟨hstands, hcontent⟩ := hafter (hmade.isFree call.id)
    refine .inr ⟨place, ?_⟩
    rw [recordedIds_append, if_neg hkey]
    exact hmade.append hrecorded hstands hcontent

lemma shelved_recordAll (hvacant : Vacant directory initial)
    (hrecord : recordAll depth directory calls initial = (after, .ok ())) :
    Shelved directory initial calls after := by
  have hstart : Shelved directory initial [] initial := .inl ⟨rfl, rfl⟩
  exact recordAll_induction (P := Shelved directory initial)
    (fun hshelved hone => shelved_record hvacant hshelved hone) hstart hrecord

/-- Times have no part in which sessions a directory has. -/
lemma HasSessions.sameButTimes (h : HasSessions directory after place ids)
    (htimes : after.SameButTimes files) : HasSessions directory files place ids where
  isDirectoryAt := htimes.keeps.isDirectoryAt h.isDirectoryAt
  listed name hname := h.listed name (by rwa [mem_namesIn_iff, ← htimes.content, ← mem_namesIn_iff])
  hasFile id hid := (htimes.hasFile _).mpr (h.hasFile id hid)
  recorded := h.recorded

/-! ### Sessions found again -/

/-- Calls leave the directory with the sessions in which they recorded a rewrite, and a line in the file of
each for each of its rewrites. -/
lemma hasSessions_of_recordAll (hvacant : Vacant directory initial)
    (hrecord : recordAll depth directory calls initial = (after, .ok ())) (hsome : recordedIds calls ≠ []) :
    ∃ place, HasSessions directory after place (recordedIds calls) ∧
      Holds directory calls after place := by
  rcases shelved_recordAll hvacant hrecord with ⟨-, hnone⟩ | ⟨place, hsessions⟩
  · exact absurd hnone hsome
  have hkept : Kept directory initial ([] ++ calls) after :=
    kept_recordAll hvacant.unused (.inl ⟨rfl, by simp⟩) hrecord
  rcases hkept with ⟨-, hblank⟩ | ⟨standing, -, hholds, -⟩
  · refine absurd (List.map_eq_nil_iff.mpr (List.filter_eq_nil_iff.mpr fun call hcall => ?_)) hsome
    simpa using hblank call hcall
  · obtain rfl := hholds.isDirectoryAt.unique hsessions.isDirectoryAt
    exact ⟨standing, hsessions, hholds⟩

/-- The file of a session stands right in the directory, under a name of plain signs, and sessions share it
whose identifiers are made safe alike. In a directory whose session files were all made by records, whenever
they were changed since, the latest session is the one whose file was changed last, and a report without an
argument is the report on it under any of its identifiers. Any calls leave such a directory, and if the
calls can be written down, the report counts the commands that they recorded in the latest session. -/
theorem sessions_found_again :
    (∀ directory id,
      (∃ name, name ≠ [] ∧ (∀ c ∈ name, c ∈ safeSigns) ∧
        path directory id = directory.child (name ++ Text.ofString ".jsonl")) ∧
      safeId (safeId id) = safeId id ∧
      ∀ other, path directory other = path directory id ↔ safeId other = safeId id) ∧
    (∀ directory files place ids, HasSessions directory files place ids → ids ≠ [] →
      ∃ id, latest directory files = .ok (some id) ∧ IsNewest directory files ids id ∧
        ∀ w : Workspace, w.files = files → w.sessionDirectory = directory →
          ∀ other, path directory other = path directory id →
            (Workspace.gain none).outcome w = (Workspace.gain (some other)).outcome w) ∧
    ∀ depth directory initial calls after files, Vacant directory initial →
      recordAll depth directory calls initial = (after, .ok ()) → after.SameButTimes files →
      recordedIds calls ≠ [] →
      (∃ place, HasSessions directory files place (recordedIds calls)) ∧
      ∀ w : Workspace, w.files = files → w.sessionDirectory = directory →
        (∀ call ∈ calls, call.IsRecordable) →
        ∃ id minutes, latest directory files = .ok (some id) ∧ (Workspace.gain none).outcome w =
          (.ok (Report.render minutes (Tally.ofCommands ((callsOf id calls).map (·.command)))), w) := by
  refine ⟨fun directory id => ⟨⟨safeId id, safeId_ne_nil id, ?_, rfl⟩, safeId_safeId id,
    fun other => path_eq_path_iff⟩, ?_, ?_⟩
  · exact fun c hc => mem_safeSigns_iff.mpr (isSafe_of_mem_safeId hc)
  · intro directory files place ids hsessions hids
    obtain ⟨id, hlatest, hnewest⟩ := hsessions.isNewest hids
    refine ⟨id, hlatest, hnewest, ?_⟩
    rintro w rfl rfl other hpath
    exact Workspace.gain_none_eq hlatest hpath
  · intro depth directory initial calls after files hvacant hrecord htimes hsome
    obtain ⟨place, hstored, hholds⟩ := hasSessions_of_recordAll hvacant hrecord hsome
    have hsessions := hstored.sameButTimes htimes
    refine ⟨⟨place, hsessions⟩, ?_⟩
    rintro w rfl rfl hcalls
    obtain ⟨id, hlatest, ⟨found, hfound, hpath⟩, -⟩ := hsessions.isNewest hsome
    have hname : fileName found = fileName id := fileName_inj.mpr (path_eq_path_iff.mp hpath)
    have hlocate := hsessions.locate hfound
    rw [hpath, hname] at hlocate
    obtain ⟨minutes, hreport⟩ := Workspace.gain_none_of_holds hlatest hlocate
      ((htimes.content _).trans (hholds.content id)) hcalls
    exact ⟨id, minutes, hlatest, hreport⟩

/-! ### Two files of one age -/

def shelf : Path := ⟨1, ["sessions"]⟩

def tiedCalls : List Call :=
  [⟨"a/b", "ls x", sampleNow, 0⟩, ⟨"é", "git log", sampleNow, 0⟩, ⟨"../c", " ", sampleNow, 1⟩]

lemma vacant_shelf : Vacant shelf {} := by
  intro now depth made place hmake hplace name hname
  have hmade : makeDirectories now depth shelf {} =
      ({ items := [([Text.ofString "sessions"], ⟨.directory, now⟩)] }, .ok ()) := by
    cases depth <;> cbv
  rw [hmade] at hmake
  obtain rfl : _ = made := (Prod.mk.inj hmake).1
  have hthere : FileSystem.follow { items := [([Text.ofString "sessions"], ⟨.directory, now⟩)] } true
      maxLinks [] [Text.ofString "sessions"] = .ok [Text.ofString "sessions"] := by
    cbv
  obtain rfl : [Text.ofString "sessions"] = place := Except.ok.inj (hthere.symm.trans hplace.1)
  simp [namesIn] at hname

/-- Both files were changed at the same time, so the name decides. A blank command makes no file. -/
theorem sessions_found_again_tied : ∃ after,
    recordAll 970 shelf tiedCalls {} = (after, .ok ()) ∧
      latest shelf after = .ok (some "a_b") ∧ IsNewest shelf after ["a/b", "é"] "a_b" ∧
      ∀ w : Workspace, w.files = after → w.sessionDirectory = shelf →
        (Workspace.gain none).outcome w = (Workspace.gain (some "a/b")).outcome w := by
  have hrecord : recordAll 970 shelf tiedCalls {} = ((recordAll 970 shelf tiedCalls {}).1, .ok ()) := by cbv
  have hids : recordedIds tiedCalls = ["a/b", "é"] := by cbv
  have hsome : recordedIds tiedCalls ≠ [] := hids ▸ List.cons_ne_nil _ _
  obtain ⟨⟨place, hsessions⟩, -⟩ := sessions_found_again.2.2 970 shelf {} tiedCalls _ _ vacant_shelf
    hrecord ⟨rfl, fun _ => rfl⟩ hsome
  rw [hids] at hsessions
  obtain ⟨id, hlatest, hnewest, hgain⟩ :=
    sessions_found_again.2.1 _ _ _ _ hsessions (List.cons_ne_nil _ _)
  have hfound : latest shelf (recordAll 970 shelf tiedCalls {}).1 = .ok (some "a_b") := by cbv
  obtain rfl : id = "a_b" := Option.some.inj (Except.ok.inj (hlatest.symm.trans hfound))
  have hshared : path shelf "a/b" = path shelf "a_b" := by decide
  exact ⟨_, hrecord, hlatest, hnewest, fun w hw hdirectory => hgain w hw hdirectory _ hshared⟩

end Session
end CommandWrap
