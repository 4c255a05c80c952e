import Mathlib
import CommandWrap.Proofs.Tally

/-! Tallies of recorded commands: every count is that of the commands with the key, the keys stand in the
order in which they were first seen, and no count depends on the order of the commands. -/
namespace CommandWrap.Tally

variable {commands others : List Text} {command k : Text} {entry : Text × Nat}

/-! ### Keys -/

/-- A word, or two words with a space between them. -/
def IsKey (k : Text) : Prop :=
  k.IsWord ∨ ∃ first second : Text, first.IsWord ∧ second.IsWord ∧
    k = first ++ CodePoint.ofChar ' ' :: second

lemma isKey_key (h : key command ≠ []) : IsKey (key command) := by
  rcases key_cases command with hnone | ⟨w, hw, hkey⟩ | ⟨w, v, hw, hv, hkey⟩
  · exact absurd hnone h
  · left
    rw [hkey]
    exact (Text.isWord_of_mem_words hw).1
  · right
    exact ⟨w, v, (Text.isWord_of_mem_words hw).1, (Text.isWord_of_mem_words hv).1, hkey⟩

lemma key_ne_nil_iff : key command ≠ [] ↔ command.isBlank = false := by
  constructor
  · intro h
    by_contra hblank
    apply h
    have hwords : command.words = [] := Text.words_eq_nil_iff.mpr (by simpa using hblank)
    rw [key, hwords]
    rfl
  · intro h hnone
    have hblank := isBlank_of_key hnone
    rw [h] at hblank
    cases hblank

/-- The keys of the commands that are not blank, in the order of the commands. -/
def keysOf (commands : List Text) : List Text := (commands.map key).filter (· ≠ [])

lemma mem_keysOf : k ∈ keysOf commands ↔ k ≠ [] ∧ ∃ command ∈ commands, key command = k := by
  simp only [keysOf, List.mem_filter, List.mem_map, decide_eq_true_eq]
  exact and_comm

lemma keysOf_append (commands others : List Text) :
    keysOf (commands ++ others) = keysOf commands ++ keysOf others := by
  simp only [keysOf, List.map_append, List.filter_append]

lemma keysOf_blank (h : key command = []) : keysOf [command] = [] := by
  simp [keysOf, h]

lemma keysOf_singleton (h : key command ≠ []) : keysOf [command] = [key command] := by
  simp [keysOf, h]

lemma length_keysOf (commands : List Text) :
    (keysOf commands).length = commands.countP fun command => !command.isBlank := by
  rw [keysOf, ← List.countP_eq_length_filter, List.countP_map]
  apply List.countP_congr
  intro command _
  simp only [Function.comp_apply, decide_eq_true_eq, Bool.not_eq_true']
  exact key_ne_nil_iff

lemma count_keysOf (hk : k ≠ []) (commands : List Text) :
    (keysOf commands).count k = commands.countP fun command => key command = k := by
  rw [keysOf, List.count_filter (by simpa using hk), List.count_eq_countP, List.countP_map]
  apply List.countP_congr
  intro command _
  simp

lemma perm_keysOf (h : others.Perm commands) : (keysOf others).Perm (keysOf commands) :=
  (h.map key).filter _

/-! ### Tallies -/

/-- Recording commands counts their keys. -/
theorem ofCommands_eq_ofKeys (commands : List Text) :
    ofCommands commands = ofKeys (keysOf commands) := by
  induction commands using List.reverseRecOn with
  | nil => rfl
  | append_singleton commands command ih =>
    rw [ofCommands_append_singleton, ih, keysOf_append]
    by_cases h : key command = []
    · rw [record_blank _ h, keysOf_blank h, List.append_nil]
    · rw [record_ofKeys _ h, keysOf_singleton h]

lemma mem_counts_ofKeys {keys : List Text} (h : entry ∈ (ofKeys keys).counts) :
    entry.1 ∈ keys ∧ entry.2 = keys.count entry.1 := by
  obtain ⟨k, hk, rfl⟩ := List.mem_map.mp h
  exact ⟨List.mem_eraseDups.mp hk, rfl⟩

lemma sum_counts_ofKeys (keys : List Text) : ((ofKeys keys).counts.map Prod.snd).sum = keys.length := by
  have hperm : keys.eraseDups.Perm keys.dedup := by
    apply (List.perm_ext_iff_of_nodup (nodup_eraseDups keys) keys.nodup_dedup).mpr
    intro k
    rw [List.mem_eraseDups, List.mem_dedup]
  have hsum := List.sum_map_count_dedup_eq_length keys
  rw [lawful_beq_subsingleton instBEqOfDecidableEq List.instBEq] at hsum
  calc ((ofKeys keys).counts.map Prod.snd).sum
      = (keys.eraseDups.map fun k => keys.count k).sum := by
        rw [ofKeys, List.map_map]
        rfl
    _ = (keys.dedup.map fun k => keys.count k).sum := (hperm.map _).sum_eq
    _ = keys.length := hsum

/-- The keys of a longer list: those of its first part, and then those that only the second part has. -/
lemma eraseDups_append_filter (keys more : List Text) :
    (keys ++ more).eraseDups = keys.eraseDups ++ more.eraseDups.filter (· ∉ keys.eraseDups) := by
  induction more using List.reverseRecOn with
  | nil => simp
  | append_singleton more k ih =>
    rw [← List.append_assoc]
    by_cases hmore : k ∈ more
    · rw [eraseDups_append_of_mem (List.mem_append_right keys hmore), ih, eraseDups_append_of_mem hmore]
    · rw [eraseDups_append_of_notMem hmore, List.filter_append]
      by_cases hkeys : k ∈ keys
      · rw [eraseDups_append_of_mem (List.mem_append_left more hkeys), ih]
        simp [List.mem_eraseDups, hkeys]
      · have hnew : k ∉ keys ++ more := by simp [hkeys, hmore]
        rw [eraseDups_append_of_notMem hnew, ih]
        simp [List.mem_eraseDups, hkeys]

/-- Each key is behind those that were seen before it. -/
lemma pairwise_idxOf_eraseDups (commands : List Text) :
    (keysOf commands).eraseDups.Pairwise fun k k' =>
      (commands.map key).idxOf k < (commands.map key).idxOf k' := by
  induction commands using List.reverseRecOn with
  | nil => exact List.Pairwise.nil
  | append_singleton commands command ih =>
    have hseen : ∀ k ∈ (keysOf commands).eraseDups, k ∈ commands.map key := by
      intro k hk
      obtain ⟨-, seen, hmem, rfl⟩ := mem_keysOf.mp (List.mem_eraseDups.mp hk)
      exact List.mem_map_of_mem hmem
    have hstay : ∀ k ∈ (keysOf commands).eraseDups,
        ((commands ++ [command]).map key).idxOf k = (commands.map key).idxOf k := by
      intro k hk
      rw [List.map_append, List.idxOf_append_of_mem (hseen k hk)]
    have hold : (keysOf commands).eraseDups.Pairwise fun k k' =>
        ((commands ++ [command]).map key).idxOf k < ((commands ++ [command]).map key).idxOf k' := by
      refine ih.imp_of_mem fun {k k'} hk hk' hlt => ?_
      rwa [hstay k hk, hstay k' hk']
    rw [keysOf_append]
    by_cases hblank : key command = []
    · rwa [keysOf_blank hblank, List.append_nil]
    rw [keysOf_singleton hblank]
    by_cases hmem : key command ∈ keysOf commands
    · rwa [eraseDups_append_of_mem hmem]
    rw [eraseDups_append_of_notMem hmem, List.pairwise_append]
    refine ⟨hold, List.pairwise_singleton _ _, fun k hk k' hk' => ?_⟩
    obtain rfl := List.mem_singleton.mp hk'
    have hnew : key command ∉ commands.map key := by
      intro hin
      obtain ⟨other, hother, hsame⟩ := List.mem_map.mp hin
      exact hmem (mem_keysOf.mpr ⟨hblank, other, hother, hsame⟩)
    have hplace : (commands.map key).idxOf k < (commands.map key).length :=
      List.idxOf_lt_length_of_mem (hseen k hk)
    rw [hstay k hk, List.map_append, List.idxOf_append_of_notMem hnew]
    omega

/-- The tally of two lists of commands, by the tallies of each of them. -/
structure IsSumOf (first second sum : Tally) : Prop where
  total : sum.total = first.total + second.total
  count : ∀ k, sum.count k = first.count k + second.count k
  keys : Entries.keys sum.counts = Entries.keys first.counts ++
    (Entries.keys second.counts).filter (· ∉ Entries.keys first.counts)

theorem isSumOf_ofCommands (commands others : List Text) :
    IsSumOf (ofCommands commands) (ofCommands others) (ofCommands (commands ++ others)) := by
  have hall : ofCommands (commands ++ others) = ofKeys (keysOf commands ++ keysOf others) := by
    rw [ofCommands_eq_ofKeys, keysOf_append]
  rw [hall, ofCommands_eq_ofKeys, ofCommands_eq_ofKeys]
  refine ⟨List.length_append, fun k => ?_, ?_⟩
  · rw [count_ofKeys, count_ofKeys, count_ofKeys, List.count_append]
  · rw [keys_ofKeys, keys_ofKeys, keys_ofKeys, eraseDups_append_filter]

/-- What a tally says of the commands that were recorded in it. -/
structure IsTallyOf (commands : List Text) (tally : Tally) : Prop where
  total_eq_sum : tally.total = (tally.counts.map Prod.snd).sum
  total_eq_countP : tally.total = commands.countP fun command => !command.isBlank
  nodup : (Entries.keys tally.counts).Nodup
  isKey : ∀ k ∈ Entries.keys tally.counts, IsKey k ∧ key k = k
  mem_keys : ∀ command ∈ commands, command.isBlank = false → key command ∈ Entries.keys tally.counts
  counted : ∀ entry ∈ tally.counts,
    1 ≤ entry.2 ∧ entry.2 = commands.countP fun command => key command = entry.1
  firstSeen : (Entries.keys tally.counts).Pairwise fun k k' =>
    (commands.map key).idxOf k < (commands.map key).idxOf k'

theorem isTallyOf_ofCommands (commands : List Text) : IsTallyOf commands (ofCommands commands) := by
  rw [ofCommands_eq_ofKeys]
  have hkeys : Entries.keys (ofKeys (keysOf commands)).counts = (keysOf commands).eraseDups :=
    keys_ofKeys _
  constructor
  case total_eq_sum => exact (sum_counts_ofKeys _).symm
  case total_eq_countP => exact length_keysOf commands
  case nodup =>
    rw [hkeys]
    exact nodup_eraseDups _
  case isKey =>
    intro k hk
    rw [hkeys] at hk
    obtain ⟨hne, command, -, rfl⟩ := mem_keysOf.mp (List.mem_eraseDups.mp hk)
    exact ⟨isKey_key hne, key_key command⟩
  case mem_keys =>
    intro command hmem hblank
    rw [hkeys]
    apply List.mem_eraseDups.mpr
    exact mem_keysOf.mpr ⟨key_ne_nil_iff.mpr hblank, command, hmem, rfl⟩
  case counted =>
    intro entry hentry
    obtain ⟨hmem, hcount⟩ := mem_counts_ofKeys hentry
    have hne := (mem_keysOf.mp hmem).1
    rw [hcount, ← count_keysOf hne]
    exact ⟨List.one_le_count_iff.mpr hmem, rfl⟩
  case firstSeen =>
    rw [hkeys]
    exact pairwise_idxOf_eraseDups commands

/-- The commands tally as they do in any other order: the total is the same, and so is every count. -/
theorem tally_of_perm (commands : List Text) :
    IsTallyOf commands (ofCommands commands) ∧
      ∀ others : List Text, others.Perm commands →
        (ofCommands others).total = (ofCommands commands).total ∧
          ∀ k, (ofCommands others).count k = (ofCommands commands).count k := by
  refine ⟨isTallyOf_ofCommands commands, fun others hperm => ?_⟩
  have hkeys := perm_keysOf hperm
  rw [ofCommands_eq_ofKeys, ofCommands_eq_ofKeys]
  refine ⟨hkeys.length_eq, fun k => ?_⟩
  rw [count_ofKeys, count_ofKeys]
  exact hkeys.count_eq k

def mixed : List Text := ["git status -s", " ", "ls", "git  status"]

def mixedOtherwise : List Text := ["ls", "git  status", "git status -s", " "]

theorem tally_of_perm_mixed :
    mixedOtherwise.Perm mixed ∧ IsTallyOf mixed ⟨3, [("git status", 2), ("ls", 1)]⟩ ∧
      (ofCommands mixedOtherwise).total = 3 ∧ (ofCommands mixedOtherwise).count "git status" = 2 := by
  have hperm : mixedOtherwise.Perm mixed := by decide
  have htally : ofCommands mixed = ⟨3, [("git status", 2), ("ls", 1)]⟩ := by decide
  have hresult := tally_of_perm mixed
  rw [htally] at hresult
  obtain ⟨htotal, hcount⟩ := hresult.2 mixedOtherwise hperm
  exact ⟨hperm, hresult.1, htotal, hcount "git status"⟩

end CommandWrap.Tally
