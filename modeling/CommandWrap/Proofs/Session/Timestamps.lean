import Mathlib
import CommandWrap.Proofs.Session.Reported
import CommandWrap.Proofs.Time.Canonical

/-! Times of rewrites. Whatever form a time was written in, it has an offset once it is read, and the one
form that is written for it is read back as the same time; so times of rewrites and of reports compare. -/
namespace CommandWrap

namespace Stamp

/-- The time has an offset of less than a day in either direction. -/
def IsAware (s : Stamp) : Prop :=
  ∃ o, s.offset = some o ∧ -(microsPerDay : Int) < o ∧ o < microsPerDay

lemma IsAware.isSome_offset {s : Stamp} (h : s.IsAware) : s.offset.isSome = true := by
  obtain ⟨o, ho, -⟩ := h
  rw [ho]
  rfl

end Stamp

namespace Session

variable {limit : Json.Limit} {t : Text} {s now : Stamp} {directory : Path} {id : Text} {files : FileSystem}

/-- The time of a rewrite. A missing offset counts as universal time. -/
def timestamp? (t : Text) : Option Stamp := (Stamp.parse? t).map Stamp.assumeUtc

/-- A time of a rewrite is valid and has an offset, which is read back as it is. -/
lemma timestamp_spec (h : timestamp? t = some s) :
    s.Valid ∧ ∃ o, s.offset = some o ∧ Stamp.readOffset o = o := by
  obtain ⟨⟨date, micros, offset⟩, hparse, rfl⟩ := Option.map_eq_some_iff.mp h
  obtain ⟨hvalid, hoffset⟩ := Stamp.parse_spec hparse
  cases offset with
  | none =>
    refine ⟨⟨hvalid.date, hvalid.micros, ?_⟩, 0, rfl, rfl⟩
    rintro _ ⟨⟩
    exact Nat.succ_pos _
  | some o => exact ⟨hvalid, o, rfl, Option.some.inj hoffset⟩

lemma isAware_of_timestamp (h : timestamp? t = some s) : s.IsAware := by
  obtain ⟨hvalid, o, ho, -⟩ := timestamp_spec h
  have hday := hvalid.offset o ho
  exact ⟨o, ho, by omega, by omega⟩

/-- The written form of a time of a rewrite is read back as that time. -/
theorem timestamp_isoText (h : timestamp? t = some s) : timestamp? s.isoText = some s := by
  obtain ⟨hvalid, o, ho, hread⟩ := timestamp_spec h
  obtain ⟨date, micros, offset⟩ := s
  obtain rfl : offset = some o := ho
  rw [timestamp?, Stamp.parse_isoText hvalid, Option.map_some, Option.map_some, hread]
  rfl

lemma timestamp_of_rewrite? {line : Text} {entry : Stamp × Text} (h : rewrite? limit line = some entry) :
    ∃ t, timestamp? t = some entry.1 := by
  obtain ⟨members, -, hmembers⟩ := rewrite?_eq_some h
  obtain ⟨time, stamp, -, hstamp, -, -, htime⟩ := entryOf?_eq_some_iff.mp hmembers
  exact ⟨time, by rw [timestamp?, hstamp, htime]; rfl⟩

/-- An account starts with the time of a rewrite, or now if there is none. -/
lemma startedAt_accountOf (limit : Json.Limit) (now : Stamp) (lines : List Text) :
    ((accountOf now (lines.filterMap (rewrite? limit))).tally = {} ∧
      (accountOf now (lines.filterMap (rewrite? limit))).startedAt = now) ∨
    ∃ t, timestamp? t = some (accountOf now (lines.filterMap (rewrite? limit))).startedAt := by
  cases hentries : lines.filterMap (rewrite? limit) with
  | nil => exact .inl ⟨rfl, rfl⟩
  | cons entry entries =>
    have hmem : entry ∈ lines.filterMap (rewrite? limit) := by simp [hentries]
    obtain ⟨line, -, hline⟩ := List.mem_filterMap.mp hmem
    exact .inr (timestamp_of_rewrite? hline)

/-- A session file is loaded from its lines, or there is none. -/
lemma load_eq_ok {account : Account} (h : load limit now directory id files = .ok account) :
    ∃ lines : List Text, account = accountOf now (lines.filterMap (rewrite? limit)) := by
  obtain ⟨isFile, -, h⟩ := bind_eq_ok h
  cases isFile with
  | false => exact ⟨[], (Except.ok.inj h).symm⟩
  | true =>
    obtain ⟨text, -, h⟩ := bind_eq_ok h
    obtain ⟨entries, hentries, h⟩ := bind_eq_ok h
    refine ⟨text.splitLines, ?_⟩
    by_cases hobstructs : ∃ line ∈ text.splitLines, Obstructs limit line
    · obtain ⟨-, -, -, error, -, herror⟩ := readLines_of_obstructs hobstructs
      rw [herror] at hentries
      cases hentries
    · rw [readLines_of_not_obstructs fun line hmem hline => hobstructs ⟨line, hmem, hline⟩] at hentries
      rw [← Except.ok.inj h, ← Except.ok.inj hentries]

lemma readText_ne_timesDiffer (p : Path) : files.readText p ≠ .error .timesDiffer :=
  bind_ne_error (mapError_ne_error nofun) fun _ => bind_ne_error (mapError_ne_error nofun) nofun

lemma load_ne_timesDiffer : load limit now directory id files ≠ .error .timesDiffer := by
  refine bind_ne_error (mapError_ne_error nofun) fun isFile => ?_
  cases isFile with
  | false => nofun
  | true =>
    refine bind_ne_error (readText_ne_timesDiffer _) fun text => ?_
    exact bind_ne_error (mapError_ne_error nofun) nofun

/-- An account dates from a rewrite in the file, or has none and starts now. -/
lemma startedAt_of_load {account : Account} (h : load limit now directory id files = .ok account) :
    (account.tally = {} ∧ account.startedAt = now) ∨ account.startedAt.IsAware := by
  obtain ⟨lines, rfl⟩ := load_eq_ok h
  refine (startedAt_accountOf limit now lines).imp_right ?_
  rintro ⟨t, ht⟩
  exact isAware_of_timestamp ht

lemma isSome_offset_of_load {account : Account} (hnow : now.offset.isSome = true)
    (h : load limit now directory id files = .ok account) : account.startedAt.offset.isSome = true := by
  rcases startedAt_of_load h with ⟨-, hstart⟩ | haware
  · rwa [hstart]
  · exact haware.isSome_offset

end Session

namespace Workspace

open CommandWrap.Action

variable {w : Workspace} {argument : Option Text}

lemma gain_of_chooses {id : Text} (h : w.Chooses argument id) :
    ((gain argument).outcome w).1 ≠ .error .timesDiffer := by
  cases hload : Session.load w.limits.session w.now.toUtc w.sessionDirectory id w.files with
  | error fault =>
    rw [outcome_gain h, hload]
    intro hfault
    obtain rfl := Except.error.inj hfault
    exact Session.load_ne_timesDiffer hload
  | ok account =>
    rw [gain_of_load h hload (Session.isSome_offset_of_load rfl hload)]
    nofun

lemma gain_ne_timesDiffer : ((gain argument).outcome w).1 ≠ .error .timesDiffer := by
  cases hname : argument.getD [] with
  | cons c id =>
    have hargument : argument = some (c :: id) := by
      cases argument with
      | none => cases hname
      | some argument => exact congrArg some hname
    exact gain_of_chooses (.inl ⟨hargument, List.cons_ne_nil _ _⟩)
  | nil =>
    cases hlatest : Session.latest w.sessionDirectory w.files with
    | ok chosen =>
      cases chosen with
      | some id => exact gain_of_chooses (.inr ⟨hname, hlatest⟩)
      | none =>
        unfold gain
        rw [outcome_bind, outcome_get, hname]
        dsimp only
        rw [hlatest]
        nofun
    | error error =>
      unfold gain
      rw [outcome_bind, outcome_get, hname]
      dsimp only
      rw [hlatest]
      nofun

end Workspace

namespace Session

/-- Every time that is taken for the time of a rewrite has an offset of less than a day, and its written
form is read back as the same time. So an account has a start with an offset whenever it does not start
now, and no report fails at times that do not compare. -/
theorem timestamps_canonical :
    (∀ t s, timestamp? t = some s → s.IsAware ∧ timestamp? s.isoText = some s) ∧
    (∀ limit now directory id files account, load limit now directory id files = .ok account →
      (account.tally = {} ∧ account.startedAt = now) ∨ account.startedAt.IsAware) ∧
    ∀ argument w, ((Workspace.gain argument).outcome w).1 ≠ .error .timesDiffer :=
  ⟨fun _ _ h => ⟨isAware_of_timestamp h, timestamp_isoText h⟩, fun _ _ _ _ _ _ h => startedAt_of_load h,
    fun _ _ => Workspace.gain_ne_timesDiffer⟩

/-- In the 53rd week of a year, with a fraction that is cut behind the sixth digit, and an offset of a
second and a half to the west. -/
def farWest : Stamp := ⟨⟨2021, 1, 1⟩, ((23 * 60 + 59) * 60) * 1000000 + 250001, some (-1500000)⟩

theorem timestamps_canonical_farWest :
    timestamp? (Text.ofString "2020-W53-5~23:59,2500019-00:00:01.5") = some farWest ∧
      farWest.IsAware ∧ timestamp? farWest.isoText = some farWest := by
  have hread : timestamp? (Text.ofString "2020-W53-5~23:59,2500019-00:00:01.5") = some farWest := by
    decide +kernel
  exact ⟨hread, timestamps_canonical.1 _ _ hread⟩

end Session
end CommandWrap
