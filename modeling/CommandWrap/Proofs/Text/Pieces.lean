import Mathlib
import CommandWrap.Proofs.Text.Words

/-! Pieces of a text: which of them trimming leaves, what the first word is, and how pieces are joined
and cut apart again. -/
namespace CommandWrap.Text

variable {part t : Text}

lemma occursIn_iff : occursIn part t = true ↔ part <:+: t := by
  induction t with
  | nil => cases part <;> simp [occursIn]
  | cons c t ih => simp [occursIn, ih, List.infix_cons_iff]

/-! ### Trimming -/

/-- What has no blank in front of it stands behind the blanks in front. -/
lemma infix_trimLeft_iff (hhead : ∃ c ∈ part.head?, c.isBlank = false) :
    part <:+: t.trimLeft ↔ part <:+: t := by
  induction t with
  | nil => rfl
  | cons c t ih =>
    by_cases hc : c.isBlank = true
    · rw [trimLeft, List.dropWhile_cons_of_pos hc, ← trimLeft, ih, List.infix_cons_iff]
      refine (or_iff_right fun hfront => ?_).symm
      obtain ⟨d, hd, hplain⟩ := hhead
      obtain ⟨behind, hbehind⟩ := hfront
      have hfirst : (part ++ behind).head? = some d := by simp [Option.mem_def.mp hd]
      rw [hbehind, List.head?_cons] at hfirst
      rw [← Option.some.inj hfirst, hc] at hplain
      cases hplain
    · rw [trimLeft, List.dropWhile_cons_of_neg hc]

/-- Trimming takes nothing away from a piece without blanks. -/
theorem infix_trim_iff (hne : part ≠ []) (hplain : ∀ c ∈ part, c.isBlank = false) :
    part <:+: t.trim ↔ part <:+: t := by
  obtain ⟨c, hc⟩ := Option.ne_none_iff_exists'.mp (mt List.head?_eq_none_iff.mp hne)
  obtain ⟨d, hd⟩ := Option.ne_none_iff_exists'.mp (mt List.getLast?_eq_none_iff.mp hne)
  have hhead : ∃ c ∈ part.head?, c.isBlank = false := ⟨c, hc, hplain c (List.mem_of_head? hc)⟩
  have hlast : ∃ c ∈ part.reverse.head?, c.isBlank = false :=
    ⟨d, by rwa [List.head?_reverse], hplain d (List.mem_of_getLast? hd)⟩
  calc part <:+: t.trim
      ↔ part.reverse <:+: trimLeft t.trimLeft.reverse := by
        rw [trim, trimRight, ← List.reverse_infix, List.reverse_reverse]
    _ ↔ part <:+: t.trimLeft := (infix_trimLeft_iff hlast).trans List.reverse_infix
    _ ↔ part <:+: t := infix_trimLeft_iff hhead

lemma exists_blank_behind (t : Text) : ∃ behind, t = t.trimRight ++ behind ∧ behind.isBlank = true := by
  refine ⟨(t.reverse.takeWhile CodePoint.isBlank).reverse, ?_, ?_⟩
  · rw [trimRight, trimLeft, ← List.reverse_append, List.takeWhile_append_dropWhile,
      List.reverse_reverse]
  · rw [isBlank, List.all_eq_true]
    intro c hc
    exact List.mem_takeWhile_imp (List.mem_reverse.mp hc)

/-- Trimming leaves the first word. -/
theorem head_trim (t : Text) : t.trim.head = t.head := by
  obtain ⟨behind, hsplit, hblank⟩ := exists_blank_behind t.trimLeft
  have hnone : (behind.takeWhile fun c => !c.isBlank) = [] := by
    rw [isBlank, List.all_eq_true] at hblank
    cases behind with
    | nil => rfl
    | cons c behind => exact List.takeWhile_cons_of_neg (by simp [hblank c List.mem_cons_self])
  unfold head
  rw [trimLeft_trim, hsplit, List.takeWhile_append, hnone, List.append_nil, ← trim]
  split_ifs with hwhole
  · exact (List.takeWhile_prefix _).eq_of_length hwhole
  · rfl

lemma trimRight_append_of_blank {behind : Text} (h : behind.isBlank = true) (t : Text) :
    trimRight (t ++ behind) = trimRight t := by
  have hreverse : ∀ c ∈ behind.reverse, c.isBlank = true := fun c hc =>
    List.all_eq_true.mp h c (List.mem_reverse.mp hc)
  rw [trimRight, trimRight, trimLeft, trimLeft, List.reverse_append,
    List.dropWhile_append_of_pos hreverse]

/-- Blanks around a text are trimmed away. -/
theorem trim_surrounded {front behind : Text} (hfront : front.isBlank = true)
    (hbehind : behind.isBlank = true) (t : Text) : trim (front ++ t ++ behind) = trim t := by
  have hleft : trimLeft (front ++ t ++ behind) = trimLeft (t ++ behind) := by
    rw [List.append_assoc]
    exact List.dropWhile_append_of_pos (List.all_eq_true.mp hfront)
  cases ht : t.isBlank with
  | true =>
    have hall : isBlank (front ++ t ++ behind) = true := by
      rw [isBlank] at hfront hbehind ht
      rw [isBlank, List.all_append, List.all_append, hfront, ht, hbehind]
      rfl
    rw [trim_eq_nil_iff.mpr hall, trim_eq_nil_iff.mpr ht]
  | false =>
    have hstart : trimLeft (t ++ behind) = trimLeft t ++ behind := by
      have hne : (t.dropWhile CodePoint.isBlank).isEmpty = false := by
        rw [List.isEmpty_eq_false_iff, Ne, List.dropWhile_eq_nil_iff, ← List.all_eq_true]
        simpa [isBlank] using ht
      rw [trimLeft, List.dropWhile_append, hne]
      rfl
    rw [trim, hleft, hstart, trimRight_append_of_blank hbehind, ← trim]

/-! ### The first word -/

/-- A text that is not blank has a first word. -/
theorem head?_words (t : Text) : t.words.head? = if t.isBlank then none else some t.head := by
  induction t with
  | nil => rfl
  | cons c t ih =>
    cases hc : c.isBlank with
    | true =>
      have hhead : head (c :: t) = head t := by simp [head, trimLeft, hc]
      have hblank : isBlank (c :: t) = isBlank t := by simp [isBlank, hc]
      rw [words_blank hc, ih, hhead, hblank]
    | false =>
      have hhead : head (c :: t) = c :: t.takeWhile fun d => !d.isBlank := by simp [head, trimLeft, hc]
      have hblank : isBlank (c :: t) = false := by simp [isBlank, hc]
      rw [words_cons hc, hhead, hblank]
      rfl

theorem words_eq_nil_iff {t : Text} : t.words = [] ↔ t.isBlank = true := by
  rw [← List.head?_eq_none_iff, head?_words]
  split_ifs with h <;> simp [h]

lemma words_trimLeft (t : Text) : t.trimLeft.words = t.words := by
  induction t with
  | nil => rfl
  | cons c t ih =>
    cases hc : c.isBlank with
    | true => rw [trimLeft, List.dropWhile_cons_of_pos hc, ← trimLeft, words_blank hc, ih]
    | false => rw [trimLeft, List.dropWhile_cons_of_neg (by simp [hc])]

/-- Trimming leaves the words. -/
theorem words_trim (t : Text) : t.trim.words = t.words := by
  obtain ⟨behind, hsplit, hblank⟩ := exists_blank_behind t.trimLeft
  have hnext : ∀ c ∈ behind.head?, c.isBlank = true := fun c hc =>
    List.all_eq_true.mp hblank c (List.mem_of_head? hc)
  calc t.trim.words
      = t.trimLeft.trimRight.words ++ behind.words := by
        rw [words_eq_nil_iff.mpr hblank, List.append_nil, trim]
    _ = t.trimLeft.words := by rw [← words_append_of_blank _ hnext, ← hsplit]
    _ = t.words := words_trimLeft t

lemma head_of_words {t word : Text} {more : List Text} (h : t.words = word :: more) : t.head = word := by
  have hfirst := head?_words t
  rw [h, List.head?_cons] at hfirst
  split_ifs at hfirst
  exact (Option.some.inj hfirst).symm

/-- What follows behind a blank leaves the first word. -/
theorem head_append_of_blank {t rest : Text} (ht : t.isBlank = false)
    (hrest : ∀ c ∈ rest.head?, c.isBlank = true) : head (t ++ rest) = head t := by
  have hne : t.words ≠ [] := by
    rw [Ne, words_eq_nil_iff, ht]
    exact Bool.false_ne_true
  obtain ⟨word, more, hwords⟩ := List.exists_cons_of_ne_nil hne
  have hboth : words (t ++ rest) = word :: (more ++ words rest) := by
    rw [words_append_of_blank t hrest, hwords, List.cons_append]
  rw [head_of_words hboth, head_of_words hwords]

/-- A piece without blanks does not go on across a blank. -/
theorem infix_append_iff_of_blank {rest : Text} (hplain : ∀ c ∈ part, c.isBlank = false)
    (hrest : ∀ c ∈ rest.head?, c.isBlank = true) :
    part <:+: t ++ rest ↔ part <:+: t ∨ part <:+: rest := by
  rw [List.infix_append_iff_ne_nil]
  refine or_congr_right (or_iff_left ?_)
  rintro ⟨before, after, -, hne, rfl, -, hafter⟩
  obtain ⟨c, after, rfl⟩ := List.exists_cons_of_ne_nil hne
  obtain ⟨behind, rfl⟩ := hafter
  have hblank := hrest c rfl
  rw [hplain c (by simp)] at hblank
  cases hblank

/-! ### Cutting apart -/

lemma splitOn_of_notMem {c : CodePoint} (h : c ∉ part) : splitOn c part = [part] := by
  induction part with
  | nil => rfl
  | cons d part ih =>
    rw [List.mem_cons, not_or] at h
    rw [splitOn, if_neg (Ne.symm h.1), ih h.2]

lemma splitOn_append {c : CodePoint} (h : c ∉ part) (rest : Text) :
    splitOn c (part ++ c :: rest) = part :: splitOn c rest := by
  induction part with
  | nil => simp [splitOn]
  | cons d part ih =>
    rw [List.mem_cons, not_or] at h
    rw [List.cons_append, splitOn, if_neg (Ne.symm h.1), ih h.2]

lemma newline_notMem_append {s t : Text} (hs : CodePoint.ofChar '\n' ∉ s) (ht : CodePoint.ofChar '\n' ∉ t) :
    CodePoint.ofChar '\n' ∉ s ++ t := fun h => (List.mem_append.mp h).elim hs ht

/-- A first line that holds no line feed is split off. -/
lemma splitOn_lines_cons {first : Text} (h : CodePoint.ofChar '\n' ∉ first) (next : Text) (more : List Text) :
    splitOn (CodePoint.ofChar '\n') (lines (first :: next :: more)) =
      first :: splitOn (CodePoint.ofChar '\n') (lines (next :: more)) := by
  have hlines : lines (first :: next :: more) = first ++ CodePoint.ofChar '\n' :: lines (next :: more) := by
    simp [lines, join, List.intercalate_cons_cons, ofString]
  rw [hlines, splitOn_append h]

/-- Lines that hold no line feed come apart again. -/
theorem splitOn_lines {parts : List Text} (hne : parts ≠ [])
    (h : ∀ part ∈ parts, CodePoint.ofChar '\n' ∉ part) :
    splitOn (CodePoint.ofChar '\n') (lines parts) = parts := by
  induction parts with
  | nil => exact absurd rfl hne
  | cons part parts ih =>
    have hpart := h part List.mem_cons_self
    cases parts with
    | nil => simpa [lines, join] using splitOn_of_notMem hpart
    | cons next more =>
      have hmore := ih (List.cons_ne_nil next more) fun other hother => h other (List.mem_cons_of_mem _ hother)
      rw [splitOn_lines_cons hpart, hmore]

end CommandWrap.Text
