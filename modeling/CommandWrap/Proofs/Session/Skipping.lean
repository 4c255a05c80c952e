import Mathlib
import CommandWrap.Proofs.Json.Reading
import CommandWrap.Proofs.Session.Line
import CommandWrap.Proofs.Settings.Loading
import CommandWrap.Proofs.Text.Lines

/-! Session files of any content. A line that is no rewrite is passed over, except for one with an
integer that is too long and for one that nests too deep: these obstruct the file. -/
namespace CommandWrap.Session

variable {limit : Json.Limit} {files : FileSystem} {directory : Path} {id text line : Text} {lines : List Text}
  {members : Entries Json} {entry : Stamp × Text}

/-! ### Lines -/

/-- The line is an object with a time, and with a key that is not blank. -/
def IsRewrite (limit : Json.Limit) (line : Text) : Prop :=
  ∃ (members : Entries Json) (time : Text) (stamp : Stamp) (key : Text),
    Json.parse limit line = .ok (.object members) ∧
    members.get? "ts" = some (.string time) ∧ Stamp.parse? time = some stamp ∧
    members.get? "key" = some (.string key) ∧ key.isBlank = false

/-- The line is no document, and not because of a sign in it: a number or the nesting is beyond what
is read. -/
def Obstructs (limit : Json.Limit) (line : Text) : Prop :=
  (∃ digits, Json.parse limit line = .error (.integerTooLong digits)) ∨
    ∃ innermost, Json.parse limit line = .error (.nestedTooDeep innermost)

/-- The rewrite on a line, if it holds one. -/
def rewrite? (limit : Json.Limit) (line : Text) : Option (Stamp × Text) :=
  match Json.parse limit line with
  | .ok (.object members) => entryOf? members
  | _ => none

lemma entryOf?_eq_some_iff : entryOf? members = some entry ↔
    ∃ time stamp, members.get? "ts" = some (.string time) ∧ Stamp.parse? time = some stamp ∧
      members.get? "key" = some (.string entry.2) ∧ entry.2.isBlank = false ∧
      entry.1 = stamp.assumeUtc := by
  obtain ⟨assumed, key⟩ := entry
  unfold entryOf?
  split
  · rename_i time found htime hkey
    rw [htime, hkey]
    constructor
    · intro h
      split_ifs at h with hblank
      obtain ⟨stamp, hstamp, hentry⟩ := Option.map_eq_some_iff.mp h
      obtain ⟨rfl, rfl⟩ := Prod.mk.inj hentry
      exact ⟨time, stamp, rfl, hstamp, rfl, by simpa using hblank, rfl⟩
    · rintro ⟨_, stamp, hsame, hstamp, hfound, hblank, rfl⟩
      obtain rfl := Json.string.inj (Option.some.inj hsame)
      obtain rfl := Json.string.inj (Option.some.inj hfound)
      simp [hblank, hstamp]
  · rename_i hnone
    constructor
    · intro h
      cases h
    · rintro ⟨time, stamp, htime, -, hkey, -⟩
      exact absurd hkey (hnone time key htime)

lemma rewrite?_eq_some (h : rewrite? limit line = some entry) :
    ∃ members, Json.parse limit line = .ok (.object members) ∧ entryOf? members = some entry := by
  unfold rewrite? at h
  split at h
  · rename_i members hparse
    exact ⟨members, hparse, h⟩
  · cases h

lemma isSome_rewrite?_iff : (rewrite? limit line).isSome = true ↔ IsRewrite limit line := by
  constructor
  · intro h
    obtain ⟨entry, hentry⟩ := Option.isSome_iff_exists.mp h
    obtain ⟨members, hparse, hmembers⟩ := rewrite?_eq_some hentry
    obtain ⟨time, stamp, htime, hstamp, hkey, hblank, -⟩ := entryOf?_eq_some_iff.mp hmembers
    exact ⟨members, time, stamp, entry.2, hparse, htime, hstamp, hkey, hblank⟩
  · rintro ⟨members, time, stamp, key, hparse, htime, hstamp, hkey, hblank⟩
    have hentry : entryOf? members = some (stamp.assumeUtc, key) :=
      entryOf?_eq_some_iff.mpr ⟨time, stamp, htime, hstamp, hkey, hblank, rfl⟩
    simp [rewrite?, hparse, hentry]

instance (limit : Json.Limit) (line : Text) : Decidable (IsRewrite limit line) :=
  decidable_of_iff _ isSome_rewrite?_iff

lemma not_isBlank_of_rewrite? (h : rewrite? limit line = some entry) : entry.2.isBlank = false := by
  obtain ⟨members, -, hmembers⟩ := rewrite?_eq_some h
  obtain ⟨time, stamp, -, -, -, hblank, -⟩ := entryOf?_eq_some_iff.mp hmembers
  exact hblank

lemma isSome_offset_of_rewrite? (h : rewrite? limit line = some entry) : entry.1.offset.isSome = true := by
  obtain ⟨members, -, hmembers⟩ := rewrite?_eq_some h
  obtain ⟨time, stamp, -, -, -, -, htime⟩ := entryOf?_eq_some_iff.mp hmembers
  rw [htime]
  rfl

lemma readLine_of_not_obstructs (h : ¬ Obstructs limit line) :
    readLine limit line = .ok (rewrite? limit line) := by
  unfold readLine rewrite?
  cases hparse : Json.parse limit line with
  | ok v => cases v <;> rfl
  | error error =>
    cases error with
    | malformed flaw offset row column => rfl
    | integerTooLong digits => exact absurd (.inl ⟨digits, hparse⟩) h
    | nestedTooDeep innermost => exact absurd (.inr ⟨innermost, hparse⟩) h

lemma readLine_of_obstructs (h : Obstructs limit line) :
    ∃ error, Json.parse limit line = .error error ∧ readLine limit line = .error error := by
  unfold readLine
  rcases h with ⟨digits, hparse⟩ | ⟨innermost, hparse⟩
  · exact ⟨_, hparse, by rw [hparse]⟩
  · exact ⟨_, hparse, by rw [hparse]⟩

lemma obstructs_of_digits {d : CodePoint} {digits : Text} (hzero : d ≠ CodePoint.ofChar '0')
    (hdigits : ∀ c ∈ d :: digits, c.isDigit = true)
    (hlong : Json.maxIntegerDigits < (d :: digits).length) : Obstructs limit (d :: digits) := by
  have hd : d.isDigit = true := hdigits d List.mem_cons_self
  have hother : ∀ c : CodePoint, c.isDigit = false → d ≠ c := by
    rintro c hc rfl
    rw [hd] at hc
    cases hc
  have hwhole : Json.wholeDigits (d :: digits) = d :: digits := by
    have htake : (digits ++ []).takeWhile CodePoint.isDigit = digits :=
      Json.takeWhile_digits (fun c hc => hdigits c (List.mem_cons_of_mem d hc)) (by simp)
    rw [List.append_nil] at htake
    rw [Json.wholeDigits, if_neg hzero, if_pos hd, htake]
  have hnumber : Json.number (d :: digits) = .error (.integerTooLong (d :: digits).length) := by
    unfold Json.number
    dsimp only
    rw [if_neg (hother (CodePoint.ofChar '-') (by decide))]
    dsimp only
    rw [hwhole, if_neg (List.cons_ne_nil d digits), List.drop_length]
    exact if_pos hlong
  have hvalue : Json.value limit.levels (d :: digits) =
      .error (.integerTooLong (d :: digits).length) := by
    obtain ⟨below, hlevels⟩ := limit.exists_levels
    rw [hlevels]
    have hscalar := Json.valueOver_scalar (some (Json.value below)) digits
      (hother (CodePoint.ofChar '"') (by decide)) (hother (CodePoint.ofChar '[') (by decide))
      (hother (CodePoint.ofChar '\x7b') (by decide))
    have hnone := Json.wordValues_digit false hd digits
    refine hscalar.trans ?_
    unfold Json.scalar
    refine Eq.trans ?_ hnumber
    rw [show d :: digits = Json.sign false ++ d :: digits from rfl, hnone]
  have hblank : Json.isBlank d = false := by
    simp only [Json.isBlank, Bool.or_eq_false_iff, decide_eq_false_iff_not]
    refine ⟨⟨⟨hother _ ?_, hother _ ?_⟩, hother _ ?_⟩, hother _ ?_⟩ <;> decide
  have hskip : Json.skipBlanks (d :: digits) = d :: digits :=
    List.dropWhile_cons_of_neg (by simp [hblank])
  have hmark : (d :: digits).head? ≠ some ⟨0xFEFF, by decide⟩ :=
    fun h => hother ⟨0xFEFF, by decide⟩ (by decide) (Option.some.inj h)
  refine .inl ⟨(d :: digits).length, ?_⟩
  unfold Json.parse Json.parseWithin Json.document
  rw [if_neg hmark, hskip, hvalue]
  rfl

/-! ### Files -/

/-- Lines that do not obstruct the file are read or passed over. -/
lemma readLines_of_not_obstructs (h : ∀ line ∈ lines, ¬ Obstructs limit line) :
    readLines limit lines = .ok (lines.filterMap (rewrite? limit)) := by
  induction lines with
  | nil => rfl
  | cons line lines ih =>
    obtain ⟨hline, hlines⟩ := List.forall_mem_cons.mp h
    have hread := readLine_of_not_obstructs hline
    have hmore := ih hlines
    have hstep : readLines limit (line :: lines) =
        .ok ((rewrite? limit line).toList ++ lines.filterMap (rewrite? limit)) := by
      rw [readLines, hread, hmore]
      rfl
    rw [hstep, List.filterMap_cons]
    cases rewrite? limit line <;> rfl

/-- The first line that obstructs the file is why it cannot be read. -/
lemma readLines_of_obstructs (h : ∃ line ∈ lines, Obstructs limit line) :
    ∃ line ∈ lines, Obstructs limit line ∧ ∃ error, Json.parse limit line = .error error ∧
      readLines limit lines = .error error := by
  induction lines with
  | nil => simp at h
  | cons line lines ih =>
    by_cases hline : Obstructs limit line
    · obtain ⟨error, hparse, hread⟩ := readLine_of_obstructs hline
      refine ⟨line, List.mem_cons_self, hline, error, hparse, ?_⟩
      rw [readLines, hread]
      rfl
    · have hmore : ∃ line ∈ lines, Obstructs limit line := by
        simpa [hline] using h
      obtain ⟨other, hmem, hother, error, hparse, hread⟩ := ih hmore
      refine ⟨other, List.mem_cons_of_mem _ hmem, hother, error, hparse, ?_⟩
      rw [readLines, readLine_of_not_obstructs hline, hread]
      rfl

lemma readText_of_bytes {p : Path} {bytes : Bytes} (hread : files.read p = .ok bytes)
    (hdecode : Utf8.decode bytes = .ok text) : files.readText p = .ok text.unifyLineEnds := by
  rw [FileSystem.readText, hread]
  simp only [Except.mapError, bind, Except.bind, hdecode]
  rfl

/-- What a file is loaded as is a matter of its lines. -/
lemma load_of_readText (hread : files.readText (path directory id) = .ok text) (now : Stamp) :
    load limit now directory id files =
      ((readLines limit text.splitLines).mapError Fault.json).map (accountOf now) := by
  obtain ⟨bytes, hbytes, -⟩ := bind_eq_ok hread
  have hfile := FileSystem.isFile_of_read (mapError_eq_ok hbytes)
  rw [load, hfile]
  simp only [Except.mapError, bind, Except.bind, if_true, hread]
  cases readLines limit text.splitLines <;> rfl

lemma load_of_not_obstructs (hread : files.readText (path directory id) = .ok text)
    (h : ∀ line ∈ text.splitLines, ¬ Obstructs limit line) (now : Stamp) :
    load limit now directory id files = .ok (accountOf now (text.splitLines.filterMap (rewrite? limit))) := by
  rw [load_of_readText hread, readLines_of_not_obstructs h]
  rfl

lemma load_of_obstructs (hread : files.readText (path directory id) = .ok text)
    (h : ∃ line ∈ text.splitLines, Obstructs limit line) :
    ∃ line ∈ text.splitLines, Obstructs limit line ∧ ∃ error, Json.parse limit line = .error error ∧
      ∀ now, load limit now directory id files = .error (.json error) := by
  obtain ⟨line, hmem, hline, error, hparse, hlines⟩ := readLines_of_obstructs h
  refine ⟨line, hmem, hline, error, hparse, fun now => ?_⟩
  rw [load_of_readText hread, hlines]
  rfl

/-- An account is dated by a rewrite, or by the time of the load. -/
lemma isSome_offset_accountOf (lines : List Text) {now : Stamp} (hnow : now.offset.isSome = true) :
    (accountOf now (lines.filterMap (rewrite? limit))).startedAt.offset.isSome = true := by
  unfold accountOf
  cases hentries : lines.filterMap (rewrite? limit) with
  | nil => exact hnow
  | cons entry entries =>
    have hmem : entry ∈ lines.filterMap (rewrite? limit) := by simp [hentries]
    obtain ⟨line, -, hline⟩ := List.mem_filterMap.mp hmem
    exact isSome_offset_of_rewrite? hline

lemma total_ofCommands_rewrites (lines : List Text) :
    (Tally.ofCommands ((lines.filterMap (rewrite? limit)).map (·.2))).total =
      (lines.filterMap (rewrite? limit)).length := by
  have hkeys : ∀ key ∈ (lines.filterMap (rewrite? limit)).map (·.2), Tally.key key ≠ [] := by
    intro key hkey hempty
    obtain ⟨entry, hentry, rfl⟩ := List.mem_map.mp hkey
    obtain ⟨line, -, hline⟩ := List.mem_filterMap.mp hentry
    have hblank := not_isBlank_of_rewrite? hline
    rw [Tally.isBlank_of_key hempty] at hblank
    cases hblank
  rw [Tally.total_ofCommands hkeys, List.length_map]

/-- Every rewrite in the file counts once. -/
lemma total_eq_countP (lines : List Text) :
    (Tally.ofCommands ((lines.filterMap (rewrite? limit)).map (·.2))).total =
      lines.countP fun line => IsRewrite limit line := by
  rw [total_ofCommands_rewrites, List.length_filterMap_eq_countP]
  refine List.countP_congr fun line _ => ?_
  rw [decide_eq_true_eq]
  exact isSome_rewrite?_iff

/-! ### A stray sign -/

set_option maxRecDepth 8000 in
lemma parse_stray : Json.parse {} "x" = .error (.malformed .expectingValue 0 1 1) := by
  cbv

lemma skipped_stray : ¬ Obstructs {} "x" ∧ rewrite? {} "x" = none := by
  simp [Obstructs, rewrite?, parse_stray]

end CommandWrap.Session
