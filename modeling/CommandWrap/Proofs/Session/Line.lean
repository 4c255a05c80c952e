import Mathlib
import CommandWrap.Session
import CommandWrap.Proofs.Json.RoundTrip
import CommandWrap.Proofs.Json.VisibleText
import CommandWrap.Proofs.Tally
import CommandWrap.Proofs.Time.RoundTrip

/-! What a session records, and that a rewrite reads back from its line. -/
namespace CommandWrap

namespace Stamp

lemma isVisible_clockText (seconds : Bool) (micros : Nat) : (clockText seconds micros).IsVisible := by
  intro c hc
  rcases mem_clockText hc with h | rfl | rfl
  · simp only [CodePoint.isDigit, Bool.and_eq_true, decide_eq_true_eq] at h
    simp only [CodePoint.IsVisible]
    omega
  · decide
  · decide

lemma isVisible_localText (s : Stamp) : s.localText.IsVisible := by
  have hpad : ∀ width n : Nat, (Text.padZeros width n).IsVisible := fun width n =>
    Text.isVisible_of_isDigit fun _ => Text.isDigit_of_mem_padZeros
  simp only [localText, dateText, Text.isVisible_append]
  exact ⟨⟨⟨⟨⟨⟨hpad _ _, by decide⟩, hpad _ _⟩, by decide⟩, hpad _ _⟩, by decide⟩, isVisible_clockText _ _⟩

lemma isVisible_isoText (s : Stamp) : s.isoText.IsVisible := by
  have hoffset : ((s.offset.map offsetText).getD []).IsVisible := by
    cases s.offset with
    | none => decide
    | some o =>
      rw [Option.map_some, Option.getD_some, offsetText, Text.isVisible_append]
      refine ⟨?_, isVisible_clockText _ _⟩
      split_ifs <;> decide
  rw [isoText, Text.isVisible_append]
  exact ⟨isVisible_localText s, hoffset⟩

lemma isVisible_zuluText (s : Stamp) : s.zuluText.IsVisible := by
  rw [zuluText, Text.isVisible_append]
  exact ⟨isVisible_localText s.toUtc, by decide⟩

end Stamp

namespace Session

open Json

/-! ### Records -/

variable {now : Int} {depth : Nat} {directory : Path} {id command : Text} {time : Stamp}
  {limit : Json.Limit}

lemma record_blank (h : Tally.key command = []) (files : FileSystem) :
    record now depth directory id time command files = (files, .ok ()) := by
  rw [record, if_pos h]

lemma record_eq (h : Tally.key command ≠ []) (files : FileSystem) :
    record now depth directory id time command files =
      files.record now depth (path directory id) (Utf8.encode (line time (Tally.key command) ++ "\n")) := by
  rw [record, if_neg h]

/-! ### Lines -/

lemma isVisible_line (time : Stamp) (key : Text) : (line time key).IsVisible := isVisible_render _

lemma throughout_line (time : Stamp) {key : Text} (hkey : key.Joined) :
    Throughout (fun u => IsReadable u ∧ IsExact u)
      (.object [("ts", .string time.isoText), ("key", .string key)]) := by
  simp only [Throughout, ThroughoutMembers, IsReadable, IsExact, and_true]
  have hkeys : ([("ts"), ("key")] : List Text).Nodup ∧
      ∀ name ∈ ([("ts"), ("key")] : List Text), name.Joined := by decide
  exact ⟨hkeys, (Stamp.isVisible_isoText time).isScalar.joined, hkey⟩

lemma parse_line (limit : Json.Limit) (time : Stamp) {key : Text} (hkey : key.Joined) :
    Json.parse limit (line time key) =
      .ok (.object [("ts", .string time.isoText), ("key", .string key)]) :=
  IsRereadable.parse_render (d := 1) ⟨by simp [Json.depth, depthOfMembers], throughout_line time hkey⟩
    (by decide)

/-- A rewrite reads back from its line. -/
theorem readLine_line {time : Stamp} (htime : time.Valid) {o : Int} (ho : time.offset = some o)
    {key : Text} (hkey : key.Joined) (hblank : key.isBlank = false) :
    readLine limit (line time key) =
      .ok (some ({ time with offset := some (Stamp.readOffset o) }, key)) := by
  have hentry : entryOf? [("ts", .string time.isoText), ("key", .string key)] =
      some ({ time with offset := some (Stamp.readOffset o) }, key) := by
    have htext : Entries.get? "ts" [(("ts" : Text), Json.string time.isoText), ("key", .string key)] =
        some (.string time.isoText) := rfl
    have hname : Entries.get? "key" [(("ts" : Text), Json.string time.isoText), ("key", .string key)] =
        some (.string key) := rfl
    rw [entryOf?, htext, hname]
    dsimp only
    rw [if_neg (by simp [hblank]), Stamp.parse_isoText htime, ho]
    rfl
  rw [readLine, parse_line limit time hkey]
  exact congrArg _ hentry

/-- A rewrite as it is recorded: a time with an offset, and the key of a command that is not blank. -/
structure IsEntry (entry : Stamp × Text) : Prop where
  time : entry.1.Valid
  offset : entry.1.offset.isSome = true
  joined : entry.2.Joined
  notBlank : entry.2.isBlank = false

/-- A rewrite as it is read back. -/
def readBack (entry : Stamp × Text) : Stamp × Text :=
  ({ entry.1 with offset := entry.1.offset.map Stamp.readOffset }, entry.2)

theorem readLines_lines (limit : Json.Limit) {entries : List (Stamp × Text)}
    (h : ∀ entry ∈ entries, IsEntry entry) :
    readLines limit (entries.map fun entry => line entry.1 entry.2) = .ok (entries.map readBack) := by
  induction entries with
  | nil => rfl
  | cons entry entries ih =>
    have hentry := h entry List.mem_cons_self
    obtain ⟨o, ho⟩ := Option.isSome_iff_exists.mp hentry.offset
    have hback : readBack entry = ({ entry.1 with offset := some (Stamp.readOffset o) }, entry.2) := by
      rw [readBack, ho]
      rfl
    rw [List.map_cons, readLines, readLine_line hentry.time ho hentry.joined hentry.notBlank,
      ih fun e he => h e (List.mem_cons_of_mem _ he), List.map_cons, hback]
    rfl

end Session
end CommandWrap
