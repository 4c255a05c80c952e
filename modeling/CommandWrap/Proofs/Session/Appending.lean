import Mathlib
import CommandWrap.Proofs.FileSystem.Growth
import CommandWrap.Proofs.Json.InFront
import CommandWrap.Proofs.Session.Skipping
import CommandWrap.Proofs.Settings
import CommandWrap.Proofs.Text.OpenLine

/-! Recording to a session file of any content. A rewrite continues the line that the file ends with, so
it is lost, and what stands on that line with it, unless that line is blank. -/
namespace CommandWrap.Session

open FileSystem

variable {limit : Json.Limit} {depth : Nat} {files after : FileSystem} {directory : Path}
  {id text front key command : Text}
  {instant : Int} {time now : Stamp} {account : Account} {entry : Stamp × Text}

/-! ### Lines -/

lemma isEntire_line (time : Stamp) (hkey : key.Joined) : Json.IsEntire (line time key) := by
  refine ⟨⟨CodePoint.ofChar 't', _, rfl, by decide, by decide⟩, fun depth v rest hvalue => ?_⟩
  cases depth with
  | zero => cases hvalue
  | succ depth =>
    have hwhole := Json.value_render (d := depth + 1) (by simp [Json.depth, Json.depthOfMembers])
      (throughout_line time hkey) Json.closes_nil
    rw [List.append_nil] at hwhole
    exact (Prod.mk.inj (Except.ok.inj (hvalue.symm.trans hwhole))).2

lemma not_obstructs_of_parse {v : Json} (h : Json.parse limit text = .ok v) : ¬ Obstructs limit text := by
  rintro (⟨digits, hlong⟩ | ⟨innermost, hdeep⟩)
  · rw [h] at hlong
    cases hlong
  · rw [h] at hdeep
    cases hdeep

/-- Behind blanks, the line of a rewrite is read as that rewrite. -/
lemma rewrite?_append_of_blank (limit : Json.Limit) (htime : time.Valid) (hkey : key.Joined)
    (hblank : key.isBlank = false)
    (hfront : ∀ c ∈ front, Json.isBlank c = true) :
    ¬ Obstructs limit (front ++ line time key) ∧
      ∃ stamp, rewrite? limit (front ++ line time key) = some (stamp, key) := by
  have hparse := Json.parse_append_of_blank (isEntire_line time hkey) hfront
    (parse_line limit time hkey)
  obtain ⟨stamp, hstamp⟩ : ∃ stamp, Stamp.parse? time.isoText = some stamp :=
    ⟨_, Stamp.parse_isoText htime⟩
  refine ⟨not_obstructs_of_parse hparse, stamp.assumeUtc, ?_⟩
  unfold rewrite?
  rw [hparse]
  exact entryOf?_eq_some_iff.mpr ⟨time.isoText, stamp, rfl, hstamp, rfl, hblank, rfl⟩

/-- Behind anything else, it is not. -/
lemma rewrite?_append_of_not_blank (hkey : key.Joined) (hfront : ∃ c ∈ front, Json.isBlank c = false) :
    rewrite? limit (front ++ line time key) = none := by
  unfold rewrite?
  split
  · rename_i members hmembers
    exact absurd hmembers (Json.parse_append_of_not_blank (isEntire_line time hkey) hfront _)
  · rfl

lemma isBlank_of_json {c : CodePoint} (h : Json.isBlank c = true) : c.isBlank = true := by
  simp only [Json.isBlank, Bool.or_eq_true, decide_eq_true_eq] at h
  rcases h with ((rfl | rfl) | rfl) | rfl <;> decide

lemma rewrite?_of_blank (hfront : ∀ c ∈ front, Json.isBlank c = true) : rewrite? limit front = none := by
  unfold rewrite?
  split
  · rename_i members hmembers
    have hsome := Json.isBlank_of_parse_object hmembers
    have hall : front.isBlank = true :=
      List.all_eq_true.mpr fun c hc => isBlank_of_json (hfront c hc)
    rw [hall] at hsome
    cases hsome
  · rfl

/-- The keys in a text of characters are joined. -/
lemma joined_of_rewrite? (htext : text.IsScalar) (h : rewrite? limit text = some entry) : entry.2.Joined := by
  obtain ⟨members, hparse, hmembers⟩ := rewrite?_eq_some h
  obtain ⟨written, stamp, -, -, hkey, -, -⟩ := entryOf?_eq_some_iff.mp hmembers
  have hreads := Json.parse_reads htext hparse
  exact Json.throughoutMembers_iff.mp hreads.2 _ (Entries.mem_of_get? hkey)

/-! ### Files -/

/-- The keys of the rewrites in a text, in their order. -/
def keysIn (limit : Json.Limit) (text : Text) : List Text :=
  (text.splitLines.filterMap (rewrite? limit)).map (·.2)

lemma tally_of_load (htext : files.readText (path directory id) = .ok text)
    (hload : load limit now directory id files = .ok account) :
    (∀ line ∈ text.splitLines, ¬ Obstructs limit line) ∧
      account.tally = Tally.ofCommands (keysIn limit text) := by
  have hfree : ∀ line ∈ text.splitLines, ¬ Obstructs limit line := by
    by_contra hnot
    have hsome : ∃ line ∈ text.splitLines, Obstructs limit line := by
      simpa using hnot
    obtain ⟨-, -, -, error, -, herror⟩ := load_of_obstructs htext hsome
    rw [herror now] at hload
    cases hload
  rw [load_of_not_obstructs htext hfree] at hload
  rw [← Except.ok.inj hload]
  exact ⟨hfree, rfl⟩

lemma total_keysIn (limit : Json.Limit) (text : Text) :
    (Tally.ofCommands (keysIn limit text)).total = (keysIn limit text).length := by
  rw [keysIn, total_ofCommands_rewrites, List.length_map]

lemma joined_of_mem_keysIn (htext : text.IsScalar) (hkey : key ∈ keysIn limit text) : key.Joined := by
  obtain ⟨entry, hentry, rfl⟩ := List.mem_map.mp hkey
  obtain ⟨line, hline, hrewrite⟩ := List.mem_filterMap.mp hentry
  exact joined_of_rewrite? (fun c hc => htext c (Text.mem_of_mem_splitLines hline hc)) hrewrite

lemma keysIn_eq (text : Text) :
    keysIn limit text =
      keysIn limit text.closedLines ++ ((rewrite? limit text.openLine).map (·.2)).toList := by
  unfold keysIn
  rw [Text.splitLines_eq_of_openLine text, List.filterMap_append, List.map_append]
  split_ifs with hopen
  · rw [hopen, rewrite?_of_blank (by simp)]
    rfl
  · cases hline : rewrite? limit text.openLine <;> simp [hline]

lemma keysIn_append_line (text : Text) (time : Stamp) (key : Text) :
    keysIn limit (text ++ (line time key ++ "\n")) =
      keysIn limit text.closedLines ++
        ((rewrite? limit (text.openLine ++ line time key)).map (·.2)).toList := by
  have hline : ∀ c ∈ line time key, c.isLineEnd = false :=
    fun c hc => (isVisible_line time key c hc).isLineEnd
  unfold keysIn
  rw [Text.splitLines_append_line text hline, List.filterMap_append, List.map_append]
  cases hlast : rewrite? limit (text.openLine ++ line time key) <;> simp [hlast]

/-- Behind a blank open line, the file holds one rewrite more. -/
lemma keysIn_append_of_blank (htime : time.Valid) (hkey : key.Joined) (hblank : key.isBlank = false)
    (hopen : ∀ c ∈ text.openLine, Json.isBlank c = true) :
    keysIn limit (text ++ (line time key ++ "\n")) = keysIn limit text ++ [key] := by
  obtain ⟨-, stamp, hrewrite⟩ := rewrite?_append_of_blank limit htime hkey hblank hopen
  rw [keysIn_append_line, hrewrite, keysIn_eq text, rewrite?_of_blank hopen]
  simp

/-- Behind any other open line, it holds none more. -/
lemma length_keysIn_append_of_not_blank (limit : Json.Limit) (hkey : key.Joined)
    (hopen : ∃ c ∈ text.openLine, Json.isBlank c = false) (time : Stamp) :
    (keysIn limit (text ++ (line time key ++ "\n"))).length ≤ (keysIn limit text).length := by
  rw [keysIn_append_line, rewrite?_append_of_not_blank hkey hopen, keysIn_eq text]
  simp

lemma not_obstructs_append_of_blank (htime : time.Valid) (hkey : key.Joined)
    (hblank : key.isBlank = false) (hopen : ∀ c ∈ text.openLine, Json.isBlank c = true)
    (hfree : ∀ part ∈ text.splitLines, ¬ Obstructs limit part) :
    ∀ part ∈ (text ++ (line time key ++ "\n")).splitLines, ¬ Obstructs limit part := by
  have hline : ∀ c ∈ line time key, c.isLineEnd = false :=
    fun c hc => (isVisible_line time key c hc).isLineEnd
  have hlast := (rewrite?_append_of_blank limit htime hkey hblank hopen).1
  intro part hpart
  rw [Text.splitLines_append_line text hline] at hpart
  rcases List.mem_append.mp hpart with hclosed | hadded
  · apply hfree
    rw [Text.splitLines_eq_of_openLine text]
    exact List.mem_append_left _ hclosed
  · rwa [List.mem_singleton.mp hadded]

/-- A rewrite is added to the text of the file. -/
lemma readText_record (htext : files.readText (path directory id) = .ok text)
    (hkey : Tally.key command ≠ [])
    (hrecord : record instant depth directory id time command files = (after, .ok ())) :
    after.readText (path directory id) = .ok (text ++ (line time (Tally.key command) ++ "\n")) := by
  obtain ⟨bytes, hbytes, htext⟩ := bind_eq_ok htext
  obtain ⟨decoded, hdecode, htext⟩ := bind_eq_ok htext
  obtain rfl : decoded.unifyLineEnds = text := Except.ok.inj htext
  rw [record_eq hkey] at hrecord
  have htakes := takes_record hrecord
  obtain ⟨place, hlocate, hcontent⟩ := locate_of_read (mapError_eq_ok hbytes)
  have hthere := htakes.locate hlocate
  have hadded := htakes.content_append hcontent
  have hwritten : after.writtenAt [(path directory id, []), (path directory id,
      Utf8.encode (line time (Tally.key command) ++ "\n"))] place =
        Utf8.encode (line time (Tally.key command) ++ "\n") := by
    simp [writtenAt_cons, hthere]
  rw [hwritten] at hadded
  have hne : line time (Tally.key command) ≠ [] := by
    rintro hnil
    cases hnil
  obtain ⟨longer, hlonger, hunified⟩ := map_eq_ok (Text.decode_append_line (mapError_eq_ok hdecode)
    (isVisible_line time (Tally.key command)) hne)
  rw [← hunified]
  exact readText_of_bytes (read_of_locate hthere hadded) hlonger

/-! ### Accounts -/

/-- A key that is not joined does not stand in a file, so no account has it. -/
lemma count_of_not_joined (htext : files.readText (path directory id) = .ok text)
    (hload : load limit now directory id files = .ok account) (hkey : ¬ key.Joined) :
    account.tally.count key = 0 := by
  obtain ⟨-, htally⟩ := tally_of_load htext hload
  rw [htally]
  apply Tally.count_ofCommands_of_ne
  intro read hread hsame
  have hjoined := Tally.joined_key (joined_of_mem_keysIn (isScalar_readText htext) hread)
  rw [hsame] at hjoined
  exact hkey hjoined

/-- A rewrite counts once more, and the other counts stay, exactly if the open line of the file is blank
and the key is joined. -/
theorem counts_once_iff (htext : files.readText (path directory id) = .ok text)
    (hload : load limit now directory id files = .ok account) (hkey : Tally.key command ≠ [])
    (htime : time.Valid) (hrecord : record instant depth directory id time command files = (after, .ok ()))
    (later : Stamp) :
    (∃ account', load limit later directory id after = .ok account' ∧
      account.tally.Gains account'.tally (Tally.key command)) ↔
    (∀ c ∈ text.openLine, Json.isBlank c = true) ∧ (Tally.key command).Joined := by
  have hlonger := readText_record htext hkey hrecord
  obtain ⟨hfree, htally⟩ := tally_of_load htext hload
  constructor
  · rintro ⟨account', hload', hgains⟩
    obtain ⟨-, htally'⟩ := tally_of_load hlonger hload'
    have hjoined : (Tally.key command).Joined := by
      by_contra hlone
      have hnone := count_of_not_joined hlonger hload' hlone
      have hmore := hgains.count (Tally.key command)
      rw [if_pos rfl] at hmore
      omega
    refine ⟨?_, hjoined⟩
    by_contra hopen
    have hfront : ∃ c ∈ text.openLine, Json.isBlank c = false := by
      simpa using hopen
    have hlength := length_keysIn_append_of_not_blank limit hjoined hfront time
    have htotal := hgains.total
    rw [htally, htally', total_keysIn, total_keysIn] at htotal
    omega
  · rintro ⟨hopen, hjoined⟩
    have hblank := Tally.isBlank_key hkey
    have hfree' := not_obstructs_append_of_blank htime hjoined hblank hopen hfree
    have htally' : Tally.ofCommands (keysIn limit (text ++ (line time (Tally.key command) ++ "\n"))) =
        account.tally.record (Tally.key command) := by
      rw [keysIn_append_of_blank htime hjoined hblank hopen, Tally.ofCommands_append_singleton, ← htally]
    have hagain : Tally.key (Tally.key command) ≠ [] := by
      rwa [Tally.key_key]
    have hgains := Tally.gains_record account.tally hagain
    rw [Tally.key_key, ← htally'] at hgains
    exact ⟨_, load_of_not_obstructs hlonger hfree' later, hgains⟩

/-! ### A stray sign with a line end behind it, and without -/

def heldDirectory : Path := ⟨1, ["s"]⟩

def heldTime : Stamp := ⟨⟨2026, 10, 17⟩, 0, some 0⟩

/-- A session file with this text. -/
def holding (held : Text) : FileSystem :=
  { items := [(["s"], ⟨.directory, 0⟩), (["s", "a.jsonl"], ⟨.file (Utf8.encode held), 0⟩)] }

def stray : Text := "x"

def strayLine : Text := "x\n"

lemma valid_heldTime : heldTime.Valid := by
  refine ⟨by decide, by decide, fun o ho => ?_⟩
  obtain rfl := Option.some.inj ho
  decide

lemma readText_holding_stray : (holding stray).readText (path heldDirectory "a") = .ok stray := by
  cbv

lemma readText_holding_strayLine :
    (holding strayLine).readText (path heldDirectory "a") = .ok strayLine := by
  cbv

lemma load_holding {held : Text} (hread : (holding held).readText (path heldDirectory "a") = .ok held)
    (hlines : held.splitLines = [Text.ofString "x"]) :
    load {} heldTime heldDirectory "a" (holding held) = .ok (accountOf heldTime []) := by
  have hfree : ∀ line ∈ held.splitLines, ¬ Obstructs {} line := by
    rw [hlines]
    simpa using skipped_stray.1
  have hnone : held.splitLines.filterMap (rewrite? {}) = [] := by
    rw [hlines]
    simp [skipped_stray.2]
  rw [load_of_not_obstructs hread hfree, hnone]

/-- What is recorded behind a stray sign is lost, and what is recorded below it counts. -/
theorem counts_once_iff_stray :
    (∃ after, record 0 970 heldDirectory "a" heldTime "ls" (holding stray) = (after, .ok ()) ∧
      ¬ ∃ account, load {} heldTime heldDirectory "a" after = .ok account ∧
        Tally.Gains {} account.tally "ls") ∧
    ∃ after account, record 0 970 heldDirectory "a" heldTime "ls" (holding strayLine) = (after, .ok ()) ∧
      load {} heldTime heldDirectory "a" after = .ok account ∧ Tally.Gains {} account.tally "ls" := by
  have hkey : Tally.key "ls" ≠ [] := by decide
  constructor
  · have hrecord : record 0 970 heldDirectory "a" heldTime "ls" (holding stray) =
        ((record 0 970 heldDirectory "a" heldTime "ls" (holding stray)).1, .ok ()) :=
      Prod.ext rfl (by cbv)
    have hload := load_holding readText_holding_stray rfl
    have hiff := counts_once_iff readText_holding_stray hload hkey valid_heldTime hrecord heldTime
    refine ⟨_, hrecord, fun hgains => ?_⟩
    have hopen := (hiff.mp hgains).1
    exact absurd (hopen (CodePoint.ofChar 'x') (by decide)) (by decide)
  · have hrecord : record 0 970 heldDirectory "a" heldTime "ls" (holding strayLine) =
        ((record 0 970 heldDirectory "a" heldTime "ls" (holding strayLine)).1, .ok ()) :=
      Prod.ext rfl (by cbv)
    have hload := load_holding readText_holding_strayLine rfl
    have hiff := counts_once_iff readText_holding_strayLine hload hkey valid_heldTime hrecord heldTime
    obtain ⟨account, haccount, hgains⟩ := hiff.mpr ⟨by decide, by decide⟩
    exact ⟨_, account, hrecord, haccount, hgains⟩

end CommandWrap.Session
