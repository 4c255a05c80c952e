import Mathlib
import CommandWrap.Report
import CommandWrap.Proofs.Number.Decimal
import CommandWrap.Proofs.Tally.Recorded

/-! Reports on tallies: the rows list the counts, the greatest first, and can be read back, since a key is
made of words and single spaces. -/
namespace CommandWrap.Report

variable {counts : Entries Nat} {entry : Text × Nat} {line : Text} {offset : Nat}

/-! ### Ranks -/

lemma perm_ranked (counts : Entries Nat) : (ranked counts).Perm counts := List.mergeSort_perm _ _

lemma ranked_trans (a b c : Text × Nat) (hab : decide (b.2 ≤ a.2) = true) (hbc : decide (c.2 ≤ b.2) = true) :
    decide (c.2 ≤ a.2) = true := by
  rw [decide_eq_true_eq] at *
  omega

lemma ranked_total (a b : Text × Nat) : (decide (b.2 ≤ a.2) || decide (a.2 ≤ b.2)) = true := by
  rw [Bool.or_eq_true, decide_eq_true_eq, decide_eq_true_eq]
  omega

lemma pairwise_ranked (counts : Entries Nat) : (ranked counts).Pairwise fun a b => b.2 ≤ a.2 := by
  have hsorted := List.pairwise_mergeSort ranked_trans ranked_total counts
  apply hsorted.imp
  intro a b hab
  rwa [decide_eq_true_eq] at hab

/-- Equal counts keep their order. -/
lemma filter_ranked (counts : Entries Nat) (n : Nat) :
    (ranked counts).filter (fun entry => entry.2 = n) = counts.filter fun entry => entry.2 = n := by
  have hequal : (counts.filter fun entry => entry.2 = n).Pairwise fun a b => decide (b.2 ≤ a.2) = true := by
    apply List.pairwise_of_forall_mem_list
    intro a ha b hb
    have ha : a.2 = n := by simpa using (List.mem_filter.mp ha).2
    have hb : b.2 = n := by simpa using (List.mem_filter.mp hb).2
    rw [decide_eq_true_eq]
    omega
  have hsub : (counts.filter fun entry => entry.2 = n).Sublist (ranked counts) :=
    List.sublist_mergeSort ranked_trans ranked_total hequal List.filter_sublist
  have hkept := hsub.filter fun entry => entry.2 = n
  rw [List.filter_filter] at hkept
  simp only [Bool.and_self] at hkept
  have hlength := ((perm_ranked counts).filter fun entry => entry.2 = n).length_eq
  exact (hkept.eq_of_length hlength.symm).symm

/-! ### Rows -/

/-- What is counted. -/
def noun (count : Nat) : Text := Text.ofString (if count = 1 then " rewrite" else " rewrites")

/-- A row shows an entry: a key with spaces around it, up to `offset`, and behind a dash its count. -/
def IsRow (offset : Nat) (entry : Text × Nat) (line : Text) : Prop :=
  ∃ (front : Text) (spaces : Nat),
    front = "  " ++ entry.1 ++ List.replicate spaces (CodePoint.ofChar ' ') ∧ front.length = offset ∧
      line = front ++ ("  - " ++ (Text.ofNat entry.2 ++ noun entry.2))

lemma le_foldl_max (counts : Entries Nat) (w : Nat) :
    w ≤ counts.foldl (fun w entry => max w entry.1.length) w ∧
      ∀ entry ∈ counts, entry.1.length ≤ counts.foldl (fun w entry => max w entry.1.length) w := by
  induction counts generalizing w with
  | nil => simp
  | cons first counts ih =>
    obtain ⟨hstart, hmore⟩ := ih (max w first.1.length)
    rw [List.foldl_cons]
    refine ⟨le_trans (le_max_left _ _) hstart, fun entry hentry => ?_⟩
    rcases List.mem_cons.mp hentry with rfl | hentry
    · exact le_trans (le_max_right _ _) hstart
    · exact hmore entry hentry

lemma length_le_width (h : entry ∈ counts) : entry.1.length ≤ width counts :=
  (le_foldl_max counts 0).2 entry h

lemma isRow_row {w : Nat} (h : entry.1.length ≤ w) : IsRow (2 + w) entry (row w entry) := by
  refine ⟨_, w - entry.1.length, rfl, ?_, ?_⟩
  · have hindent : (Text.ofString "  ").length = 2 := rfl
    rw [List.length_append, List.length_append, List.length_replicate, hindent]
    omega
  · obtain ⟨key, count⟩ := entry
    simp only [row, Text.padRight, noun, List.append_assoc]

lemma isBlank_of_isDigit {c : CodePoint} (h : c.isDigit = true) : c.isBlank = false := by
  simp only [CodePoint.isDigit, Bool.and_eq_true, decide_eq_true_eq] at h
  simp only [CodePoint.isBlank, CodePoint.inRanges, List.any_cons, List.any_nil, Bool.or_false,
    Bool.or_eq_false_iff, Bool.and_eq_false_iff, decide_eq_false_iff_not]
  omega

lemma isWord_ofNat (n : Nat) : Text.IsWord (Text.ofNat n) :=
  ⟨Text.ofNat_ne_nil n, fun _ hc => isBlank_of_isDigit (Text.isDigit_of_mem_ofNat hc)⟩

lemma words_noun (count : Nat) :
    ∃ word, (noun count).words = [word] ∧ ∀ c ∈ (noun count).head?, c.isBlank = true := by
  unfold noun
  split_ifs
  · exact ⟨"rewrite", by decide, by decide⟩
  · exact ⟨"rewrites", by decide, by decide⟩

/-- The words of a row are those of the key, a dash, the count and what is counted. -/
lemma words_of_isRow (h : IsRow offset entry line) :
    ∃ word, line.words = entry.1.words ++ [Text.ofString "-", Text.ofNat entry.2, word] := by
  obtain ⟨front, spaces, hfront, -, rfl⟩ := h
  obtain ⟨word, hword, hhead⟩ := words_noun entry.2
  have hspaces : Text.isBlank (List.replicate spaces (CodePoint.ofChar ' ')) = true := by
    apply List.all_eq_true.mpr
    intro c hc
    rw [(List.mem_replicate.mp hc).2]
    exact Text.isBlank_space
  have hkey : front.words = entry.1.words := by
    rw [hfront, ← Text.words_trim, Text.trim_surrounded (by decide) hspaces, Text.words_trim]
  have hcount : Text.words (Text.ofNat entry.2 ++ noun entry.2) = [Text.ofNat entry.2, word] := by
    rw [Text.words_append (isWord_ofNat entry.2) hhead, hword]
  have hdash : Text.words ("  - " ++ (Text.ofNat entry.2 ++ noun entry.2)) =
      [Text.ofString "-", Text.ofNat entry.2, word] := by
    change Text.words (CodePoint.ofChar ' ' :: CodePoint.ofChar ' ' ::
      (Text.ofString "-" ++ CodePoint.ofChar ' ' :: (Text.ofNat entry.2 ++ noun entry.2))) = _
    rw [Text.words_blank Text.isBlank_space, Text.words_blank Text.isBlank_space,
      Text.words_append (by decide) fun c hc => by rw [← Option.some.inj hc]; decide,
      Text.words_blank Text.isBlank_space, hcount]
  refine ⟨word, ?_⟩
  rw [Text.words_append_of_blank front fun c hc => by rw [← Option.some.inj hc]; decide, hkey, hdash]

/-- A row can be read back: the key is its own, so its words give it. -/
lemma eq_of_isRow {offset' : Nat} {entry' : Text × Nat} (h : IsRow offset entry line)
    (h' : IsRow offset' entry' line) (hkey : Tally.key entry.1 = entry.1)
    (hkey' : Tally.key entry'.1 = entry'.1) : entry = entry' := by
  obtain ⟨word, hwords⟩ := words_of_isRow h
  obtain ⟨word', hwords'⟩ := words_of_isRow h'
  have hparts : entry.1.words = entry'.1.words ∧
      [Text.ofString "-", Text.ofNat entry.2, word] = [Text.ofString "-", Text.ofNat entry'.2, word'] := by
    apply List.append_inj' (hwords.symm.trans hwords')
    rfl
  have hdigits : Text.ofNat entry.2 = Text.ofNat entry'.2 := by
    simpa using (List.cons.inj (List.cons.inj hparts.2).2).1
  apply Prod.ext
  · rw [← hkey, ← hkey', Tally.key, Tally.key, hparts.1]
  · rw [← Text.digitsValue_ofNat entry.2, hdigits, Text.digitsValue_ofNat]

/-! ### Lines -/

def heading (minutes : Nat) : Text := "RTK Session Stats (" ++ duration minutes ++ ")"

lemma newline_notMem_ofNat (n : Nat) : CodePoint.ofChar '\n' ∉ Text.ofNat n := by
  intro h
  have hdigit := Text.isDigit_of_mem_ofNat h
  revert hdigit
  decide

lemma newline_notMem_heading (minutes : Nat) : CodePoint.ofChar '\n' ∉ heading minutes := by
  have hduration : CodePoint.ofChar '\n' ∉ duration minutes := by
    unfold duration
    split_ifs
    · exact Text.newline_notMem_append (newline_notMem_ofNat _) (by decide)
    · apply Text.newline_notMem_append _ (by decide)
      apply Text.newline_notMem_append _ (newline_notMem_ofNat _)
      exact Text.newline_notMem_append (newline_notMem_ofNat _) (by decide)
  exact Text.newline_notMem_append (Text.newline_notMem_append (by decide) hduration) (by decide)

/-- A key holds no line feed: its words hold no blank, and a space is between them. -/
lemma newline_notMem_key {k : Text} (h : Tally.IsKey k) : CodePoint.ofChar '\n' ∉ k := by
  have hword : ∀ w : Text, w.IsWord → CodePoint.ofChar '\n' ∉ w := by
    intro w hw hmem
    have hplain := hw.2 _ hmem
    revert hplain
    decide
  rcases h with hk | ⟨first, second, hfirst, hsecond, rfl⟩
  · exact hword k hk
  · apply Text.newline_notMem_append (hword first hfirst)
    intro hmem
    rcases List.mem_cons.mp hmem with heq | hmem
    · exact absurd heq (by decide)
    · exact hword second hsecond hmem

lemma newline_notMem_row (h : IsRow offset entry line) (hkey : Tally.IsKey entry.1) :
    CodePoint.ofChar '\n' ∉ line := by
  obtain ⟨front, spaces, rfl, -, rfl⟩ := h
  have hspaces : CodePoint.ofChar '\n' ∉ List.replicate spaces (CodePoint.ofChar ' ') := by
    intro hmem
    exact absurd (List.mem_replicate.mp hmem).2 (by decide)
  have hnoun : CodePoint.ofChar '\n' ∉ noun entry.2 := by
    unfold noun
    split_ifs <;> decide
  apply Text.newline_notMem_append
  · apply Text.newline_notMem_append _ hspaces
    exact Text.newline_notMem_append (by decide) (newline_notMem_key hkey)
  · apply Text.newline_notMem_append (by decide)
    exact Text.newline_notMem_append (newline_notMem_ofNat _) hnoun

/-- The rows of a report on these counts. -/
def rows (counts : Entries Nat) : List Text := (ranked counts).map (row (width (ranked counts)))

lemma isRow_rows (counts : Entries Nat) :
    List.Forall₂ (IsRow (2 + width (ranked counts))) (ranked counts) (rows counts) := by
  rw [rows, List.forall₂_map_right_iff, List.forall₂_same]
  exact fun entry hentry => isRow_row (length_le_width hentry)

/-- Rows that are alike show the same entries. -/
lemma eq_of_isRows {offset' : Nat} {entries entries' : Entries Nat} {lines : List Text}
    (h : List.Forall₂ (IsRow offset) entries lines) (h' : List.Forall₂ (IsRow offset') entries' lines)
    (hkeys : ∀ entry ∈ entries, Tally.key entry.1 = entry.1)
    (hkeys' : ∀ entry ∈ entries', Tally.key entry.1 = entry.1) : entries = entries' := by
  induction h generalizing entries' with
  | nil =>
    cases h'
    rfl
  | cons hrow hmore ih =>
    cases h' with
    | cons hrow' hmore' =>
      obtain ⟨hkey, hkeys⟩ := List.forall_mem_cons.mp hkeys
      obtain ⟨hkey', hkeys'⟩ := List.forall_mem_cons.mp hkeys'
      rw [eq_of_isRow hrow hrow' hkey hkey', ih hmore' hkeys hkeys']

lemma splitOn_render {tally : Tally} (htotal : 0 < tally.total)
    (hkeys : ∀ entry ∈ tally.counts, Tally.IsKey entry.1) (minutes : Nat) :
    Text.splitOn (CodePoint.ofChar '\n') (render minutes tally) =
      heading minutes :: ("Total rewrites: " ++ Text.ofNat tally.total) :: [] :: rows tally.counts := by
  have hrows : ∀ line ∈ rows tally.counts, CodePoint.ofChar '\n' ∉ line := by
    intro line hline
    obtain ⟨entry, hentry, rfl⟩ := List.mem_map.mp hline
    have hkey := hkeys entry ((perm_ranked tally.counts).mem_iff.mp hentry)
    exact newline_notMem_row (isRow_row (length_le_width hentry)) hkey
  have hrender : render minutes tally = Text.lines
      (heading minutes :: ("Total rewrites: " ++ Text.ofNat tally.total) :: [] :: rows tally.counts) := by
    unfold render
    simp only [htotal.ne', if_false]
    rfl
  rw [hrender]
  apply Text.splitOn_lines (List.cons_ne_nil _ _)
  intro line hline
  rcases List.mem_cons.mp hline with rfl | hline
  · exact newline_notMem_heading minutes
  rcases List.mem_cons.mp hline with rfl | hline
  · exact Text.newline_notMem_append (by decide) (newline_notMem_ofNat _)
  rcases List.mem_cons.mp hline with rfl | hline
  · exact List.not_mem_nil
  · exact hrows line hline

/-! ### Reports on recorded commands -/

variable {commands : List Text} {started now : Stamp}

/-- Reports are made between times that both have an offset. -/
lemma ofTally?_eq_some (hstarted : started.offset.isSome = true) (hnow : now.offset.isSome = true)
    (tally : Tally) : ofTally? started now tally =
      some (render (wholeMinutes (now.instant - started.instant)) tally) := by
  rw [ofTally?, Stamp.elapsed?, hstarted, hnow]
  rfl

/-- The lines of a report on these commands: below the total, there is a row for each of the entries. -/
structure IsListing (commands lines : List Text) (entries : Entries Nat) : Prop where
  length : lines.length = 3 + entries.length
  total : lines[1]? = some ("Total rewrites: " ++ Text.ofNat (Tally.ofCommands commands).total)
  rows : ∃ offset, List.Forall₂ (IsRow offset) entries (lines.drop 3)
  perm : entries.Perm (Tally.ofCommands commands).counts
  nodup : (Entries.keys entries).Nodup
  falling : entries.Pairwise fun a b => b.2 ≤ a.2
  firstSeen : entries.Pairwise fun a b => a.2 = b.2 →
    (commands.map Tally.key).idxOf a.1 < (commands.map Tally.key).idxOf b.1
  sum : (entries.map Prod.snd).sum = (Tally.ofCommands commands).total

lemma isKey_of_mem_counts {k : Text × Nat} (h : k ∈ (Tally.ofCommands commands).counts) :
    Tally.IsKey k.1 ∧ Tally.key k.1 = k.1 :=
  (Tally.isTallyOf_ofCommands commands).isKey k.1 (List.mem_map_of_mem h)

lemma isListing_ranked (htotal : 0 < (Tally.ofCommands commands).total) (minutes : Nat) :
    IsListing commands (Text.splitOn (CodePoint.ofChar '\n') (render minutes (Tally.ofCommands commands)))
      (ranked (Tally.ofCommands commands).counts) := by
  have htally := Tally.isTallyOf_ofCommands commands
  have hperm := perm_ranked (Tally.ofCommands commands).counts
  rw [splitOn_render htotal (fun entry hentry => (isKey_of_mem_counts hentry).1)]
  refine ⟨?_, rfl, ⟨_, isRow_rows _⟩, hperm, ?_, pairwise_ranked _, ?_, ?_⟩
  · simp only [List.length_cons, rows, List.length_map]
    omega
  · exact (hperm.map Prod.fst).nodup_iff.mpr htally.nodup
  · apply List.pairwise_iff_forall_sublist.mpr
    intro a b hab hcount
    have hkept := hab.filter fun entry => entry.2 = a.2
    rw [filter_ranked] at hkept
    have hboth : [a, b].filter (fun entry => entry.2 = a.2) = [a, b] := by
      simp [hcount]
    rw [hboth] at hkept
    have hseen := htally.firstSeen
    rw [Entries.keys, List.pairwise_map] at hseen
    exact List.pairwise_iff_forall_sublist.mp hseen (hkept.trans List.filter_sublist)
  · rw [htally.total_eq_sum]
    exact (hperm.map Prod.snd).sum_eq

/-- A report on recorded commands lists every key once with its count, the greatest count first and equal
counts in the order in which they were first seen. The counts make up the total, the dashes stand one below
the other, and reports with the same rows are on the same counts. -/
theorem report_lists (hstarted : started.offset.isSome = true) (hnow : now.offset.isSome = true)
    (htotal : 0 < (Tally.ofCommands commands).total) :
    ∃ report, ofTally? started now (Tally.ofCommands commands) = some report ∧
      (∃ entries, IsListing commands (Text.splitOn (CodePoint.ofChar '\n') report) entries) ∧
      ∀ (others : List Text) (started' now' : Stamp) (report' : Text),
        0 < (Tally.ofCommands others).total →
        ofTally? started' now' (Tally.ofCommands others) = some report' →
        (Text.splitOn (CodePoint.ofChar '\n') report').drop 3 =
          (Text.splitOn (CodePoint.ofChar '\n') report).drop 3 →
        (Tally.ofCommands others).counts.Perm (Tally.ofCommands commands).counts := by
  refine ⟨_, ofTally?_eq_some hstarted hnow _, ⟨_, isListing_ranked htotal _⟩, ?_⟩
  intro others started' now' report' htotal' hreport' hrows
  obtain ⟨micros, -, rfl⟩ := Option.map_eq_some_iff.mp hreport'
  rw [splitOn_render htotal (fun entry hentry => (isKey_of_mem_counts hentry).1),
    splitOn_render htotal' (fun entry hentry => (isKey_of_mem_counts hentry).1)] at hrows
  have hsame : rows (Tally.ofCommands others).counts = rows (Tally.ofCommands commands).counts := hrows
  have hranked := isRow_rows (Tally.ofCommands others).counts
  rw [hsame] at hranked
  have hkeys : ∀ (recorded : List Text) (entry : Text × Nat),
      entry ∈ ranked (Tally.ofCommands recorded).counts → Tally.key entry.1 = entry.1 :=
    fun recorded entry hentry => (isKey_of_mem_counts ((perm_ranked _).mem_iff.mp hentry)).2
  have hentries := eq_of_isRows hranked (isRow_rows _) (hkeys others) (hkeys commands)
  exact ((perm_ranked _).symm.trans (hentries ▸ .refl _)).trans (perm_ranked _)

/-! ### Keys that look like counts -/

def dashes : List Text := ["- 2 rewrites", "2 rewrites", "ls", "-  2", "ls"]

def noon : Stamp := ⟨⟨2026, 10, 17⟩, 43200000000, some 0⟩

theorem report_lists_dashes :
    0 < (Tally.ofCommands dashes).total ∧ ∃ report entries,
      ofTally? noon noon (Tally.ofCommands dashes) = some report ∧
        IsListing dashes (Text.splitOn (CodePoint.ofChar '\n') report) entries ∧
        (Text.splitOn (CodePoint.ofChar '\n') report).length = 6 := by
  have htally : Tally.ofCommands dashes = ⟨5, [("- 2", 2), ("2 rewrites", 1), ("ls", 2)]⟩ := by decide
  have htotal : 0 < (Tally.ofCommands dashes).total := by
    rw [htally]
    decide
  have hnoon : noon.offset.isSome = true := rfl
  obtain ⟨report, hreport, ⟨entries, hlisting⟩, -⟩ := report_lists hnoon hnoon htotal
  have hlength := hlisting.length
  rw [hlisting.perm.length_eq, htally] at hlength
  exact ⟨htotal, report, entries, hreport, hlisting, hlength⟩

end CommandWrap.Report
