import Mathlib
import CommandWrap.Tally
import CommandWrap.Proofs.Json.Entries
import CommandWrap.Proofs.Text.Pieces

/-! Keys of commands: the key of a key is that key, so a tally of keys is the tally of the commands. -/
namespace CommandWrap.Tally

lemma key_cases (command : Text) : key command = [] ∨
    (∃ w, w ∈ command.words ∧ key command = w) ∨
    (∃ w v, w ∈ command.words ∧ v ∈ command.words ∧
      key command = w ++ CodePoint.ofChar ' ' :: v) := by
  match h : command.words with
  | [] => exact .inl (by rw [key, h]; rfl)
  | [w] => exact .inr (.inl ⟨w, by simp, by rw [key, h]; simp [Text.join]⟩)
  | w :: v :: more =>
    refine .inr (.inr ⟨w, v, by simp, by simp, ?_⟩)
    rw [key, h]
    simp [Text.join, Text.ofString, List.intercalate]

lemma isBlank_of_key {command : Text} (h : key command = []) : command.isBlank = true := by
  match hwords : command.words with
  | [] => exact Text.words_eq_nil_iff.mp hwords
  | [w] =>
    have hw := Text.isWord_of_mem_words (hwords ▸ List.mem_singleton_self w : w ∈ command.words)
    rw [key, hwords] at h
    exact absurd (by simpa [Text.join] using h) hw.1.1
  | w :: v :: more =>
    rw [key, hwords] at h
    simp [Text.join, Text.ofString, List.intercalate] at h

theorem key_key (command : Text) : key (key command) = key command := by
  rcases key_cases command with h | ⟨w, hw, h⟩ | ⟨w, v, hw, hv, h⟩
  · rw [h]
    rfl
  · rw [h, key, Text.words_of_isWord (Text.isWord_of_mem_words hw).1]
    simp [Text.join]
  · have hwords : Text.words (w ++ CodePoint.ofChar ' ' :: v) = [w, v] := by
      rw [Text.words_append (Text.isWord_of_mem_words hw).1 (by simp [Text.isBlank_space]),
        Text.words_blank Text.isBlank_space, Text.words_of_isWord (Text.isWord_of_mem_words hv).1]
    rw [h, key, hwords]
    simp [Text.join, Text.ofString, List.intercalate]

lemma isBlank_of_isWord {w : Text} (hw : w.IsWord) : w.isBlank = false := by
  obtain ⟨hne, hall⟩ := hw
  cases w with
  | nil => exact absurd rfl hne
  | cons c w => simp [Text.isBlank, hall c List.mem_cons_self]

theorem isBlank_key {command : Text} (h : key command ≠ []) : (key command).isBlank = false := by
  rcases key_cases command with h' | ⟨w, hw, h'⟩ | ⟨w, v, hw, hv, h'⟩
  · exact absurd h' h
  · rw [h']
    exact isBlank_of_isWord (Text.isWord_of_mem_words hw).1
  · have := isBlank_of_isWord (Text.isWord_of_mem_words hw).1
    rw [h', Text.isBlank, List.all_append]
    rw [Text.isBlank] at this
    rw [this, Bool.false_and]

/-- The key of a joined command is joined: its words stand in the command, and a space is between. -/
theorem joined_key {command : Text} (h : command.Joined) : (key command).Joined := by
  have hword : ∀ w ∈ command.words, w.Joined := fun w hw =>
    h.of_isInfix (Text.isWord_of_mem_words hw).2
  rcases key_cases command with h' | ⟨w, hw, h'⟩ | ⟨w, v, hw, hv, h'⟩
  · rw [h']
    exact List.isChain_nil
  · rw [h']
    exact hword w hw
  · rw [h', Text.Joined, List.isChain_append, List.isChain_cons]
    refine ⟨hword w hw, ⟨?_, hword v hv⟩, ?_⟩
    · intro d _ hd
      exact absurd hd.1 (by decide)
    · intro c _ d hd hcd
      obtain rfl : CodePoint.ofChar ' ' = d := by simpa using hd
      exact absurd hcd.2 (by decide)

lemma record_key (tally : Tally) (command : Text) : tally.record (key command) = tally.record command := by
  simp only [record, key_key]

lemma record_blank (tally : Tally) {command : Text} (h : key command = []) :
    tally.record command = tally := by
  rw [record]
  simp only [h, if_true]

/-- Blank commands do not count, and the others count as their keys do. -/
theorem ofCommands_keys (commands : List Text) :
    ofCommands ((commands.filter fun c => key c ≠ []).map key) = ofCommands commands := by
  have hfold : ∀ tally : Tally,
      ((commands.filter fun c => key c ≠ []).map key).foldl record tally =
        commands.foldl record tally := by
    induction commands with
    | nil => exact fun _ => rfl
    | cons c commands ih =>
      intro tally
      by_cases hc : key c = []
      · rw [List.filter_cons_of_neg (by simp [hc]), List.foldl_cons, record_blank tally hc, ih]
      · rw [List.filter_cons_of_pos (by simp [hc]), List.map_cons, List.foldl_cons, List.foldl_cons,
          record_key, ih]
  exact hfold {}

lemma total_record (tally : Tally) {command : Text} (h : key command ≠ []) :
    (tally.record command).total = tally.total + 1 := by
  rw [record]
  simp only [h, if_false]

/-- Commands that are not blank count once each. -/
lemma total_ofCommands {commands : List Text} (h : ∀ command ∈ commands, key command ≠ []) :
    (ofCommands commands).total = commands.length := by
  have hfold : ∀ tally : Tally,
      (commands.foldl record tally).total = tally.total + commands.length := by
    induction commands with
    | nil => exact fun _ => rfl
    | cons command commands ih =>
      intro tally
      have hcommand := h command List.mem_cons_self
      have hmore := ih fun other hother => h other (List.mem_cons_of_mem _ hother)
      rw [List.foldl_cons, hmore, total_record tally hcommand, List.length_cons]
      omega
  have hstart := hfold {}
  rw [ofCommands, hstart]
  exact Nat.zero_add _

/-! ### Counts -/

/-- How often a key was counted. -/
def count (tally : Tally) (key : Text) : Nat := (tally.counts.get? key).getD 0

lemma count_record (tally : Tally) {command : Text} (h : key command ≠ []) (other : Text) :
    (tally.record command).count other = tally.count other + if other = key command then 1 else 0 := by
  unfold record count
  simp only [h, if_false, Entries.get?_insert]
  by_cases hother : other = key command
  · simp [hother]
  · simp [hother]

/-- One key is counted once more, and no other. -/
structure Gains (before after : Tally) (key : Text) : Prop where
  total : after.total = before.total + 1
  count : ∀ other, after.count other = before.count other + if other = key then 1 else 0

lemma gains_record (tally : Tally) {command : Text} (h : key command ≠ []) :
    tally.Gains (tally.record command) (key command) :=
  ⟨total_record tally h, count_record tally h⟩

/-- No more keys are counted than those of the commands. -/
lemma count_ofCommands_of_ne {commands : List Text} {other : Text}
    (h : ∀ command ∈ commands, key command ≠ other) : (ofCommands commands).count other = 0 := by
  have hfold : ∀ tally : Tally, (commands.foldl record tally).count other = tally.count other := by
    induction commands with
    | nil => exact fun _ => rfl
    | cons command commands ih =>
      intro tally
      have hcommand := h command List.mem_cons_self
      have hmore := ih fun later hlater => h later (List.mem_cons_of_mem _ hlater)
      rw [List.foldl_cons, hmore]
      by_cases hblank : key command = []
      · rw [record_blank tally hblank]
      · rw [count_record tally hblank, if_neg (Ne.symm hcommand), Nat.add_zero]
  exact hfold {}

lemma ofCommands_append_singleton (commands : List Text) (command : Text) :
    ofCommands (commands ++ [command]) = (ofCommands commands).record command := by
  unfold ofCommands
  rw [List.foldl_append]
  rfl

/-- The tally of the keys: each of them once, in the order in which they were first seen, with the number of
times that it was seen. -/
def ofKeys (keys : List Text) : Tally :=
  ⟨keys.length, keys.eraseDups.map fun key => (key, keys.count key)⟩

lemma eraseDups_append_of_mem {keys : List Text} {key : Text} (h : key ∈ keys) :
    (keys ++ [key]).eraseDups = keys.eraseDups := by
  rw [List.eraseDups_append]
  simp [List.removeAll, h]

lemma eraseDups_append_of_notMem {keys : List Text} {key : Text} (h : key ∉ keys) :
    (keys ++ [key]).eraseDups = keys.eraseDups ++ [key] := by
  rw [List.eraseDups_append]
  simp [List.removeAll, h, List.eraseDups_cons]

lemma nodup_eraseDups (keys : List Text) : keys.eraseDups.Nodup := by
  induction keys using List.reverseRecOn with
  | nil => exact List.nodup_nil
  | append_singleton keys key ih =>
    by_cases h : key ∈ keys
    · rwa [eraseDups_append_of_mem h]
    · have hnew : key ∉ keys.eraseDups := fun hmem => h (List.mem_eraseDups.mp hmem)
      rw [eraseDups_append_of_notMem h]
      exact List.Nodup.append ih (List.nodup_singleton key) (List.disjoint_singleton.mpr hnew)

lemma keys_ofKeys (keys : List Text) : Entries.keys (ofKeys keys).counts = keys.eraseDups := by
  rw [ofKeys, Entries.keys, List.map_map]
  exact List.map_id _

lemma count_ofKeys (keys : List Text) (key : Text) : (ofKeys keys).count key = keys.count key := by
  have hkeys := keys_ofKeys keys
  unfold count
  by_cases h : key ∈ keys
  · have hmem : (key, keys.count key) ∈ (ofKeys keys).counts :=
      List.mem_map_of_mem (List.mem_eraseDups.mpr h)
    rw [Entries.get?_of_mem (hkeys ▸ nodup_eraseDups keys) hmem]
    rfl
  · have hnew : key ∉ Entries.keys (ofKeys keys).counts := fun hmem =>
      h (List.mem_eraseDups.mp (hkeys ▸ hmem))
    rw [Entries.get?_eq_none_iff.mpr hnew, List.count_eq_zero_of_not_mem h]
    rfl

/-- A command that is recorded is one more key. -/
theorem record_ofKeys (keys : List Text) {command : Text} (h : key command ≠ []) :
    (ofKeys keys).record command = ofKeys (keys ++ [key command]) := by
  have hcount : ((ofKeys keys).counts.get? (key command)).getD 0 = keys.count (key command) :=
    count_ofKeys keys (key command)
  have hkeys := keys_ofKeys keys
  unfold record
  simp only [h, if_false]
  rw [hcount]
  -- A known key keeps its place and counts once more; a new one comes last.
  by_cases hmem : key command ∈ keys
  · have hplace : key command ∈ Entries.keys (ofKeys keys).counts :=
      hkeys ▸ List.mem_eraseDups.mpr hmem
    rw [Entries.insert_eq_map (hkeys ▸ nodup_eraseDups keys) hplace]
    simp only [ofKeys, eraseDups_append_of_mem hmem, List.map_map, List.length_append,
      List.length_singleton, mk.injEq, true_and]
    refine List.map_congr_left fun other _ => ?_
    by_cases hother : other = key command
    · simp [hother]
    · simp [hother, Ne.symm hother]
  · have hplace : key command ∉ Entries.keys (ofKeys keys).counts := fun hold =>
      hmem (List.mem_eraseDups.mp (hkeys ▸ hold))
    rw [Entries.insert_of_notMem hplace, List.count_eq_zero_of_not_mem hmem]
    simp only [ofKeys, eraseDups_append_of_notMem hmem, List.map_append, List.length_append,
      List.length_singleton, mk.injEq, true_and]
    congr 1
    · refine List.map_congr_left fun other hold => ?_
      have hother : key command ≠ other := fun heq => hmem (heq ▸ List.mem_eraseDups.mp hold)
      simp [hother]
    · simp [List.count_eq_zero_of_not_mem hmem]

end CommandWrap.Tally
