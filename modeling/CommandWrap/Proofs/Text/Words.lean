import Mathlib
import CommandWrap.Text.Blank
import CommandWrap.Proofs.Text.CodePoint

/-! The words of a text, one after the other. -/
namespace CommandWrap.Text

/-- A word: some code points, none of them blank. -/
def IsWord (w : Text) : Prop := w ≠ [] ∧ ∀ c ∈ w, c.isBlank = false

instance (w : Text) : Decidable w.IsWord := inferInstanceAs (Decidable (_ ∧ _))

lemma isBlank_space : (CodePoint.ofChar ' ').isBlank = true := by decide

lemma words_blank {c : CodePoint} (hc : c.isBlank = true) (rest : Text) :
    words (c :: rest) = words rest := by
  rw [words.eq_def]
  dsimp only
  rw [if_pos hc]

lemma words_cons {c : CodePoint} (hc : c.isBlank = false) (rest : Text) :
    words (c :: rest) = (c :: rest.takeWhile fun d => !d.isBlank) ::
      words (rest.dropWhile fun d => !d.isBlank) := by
  induction rest generalizing c with
  | nil => simp [words, hc]
  | cons d rest ih =>
    rw [words, if_neg (by simp [hc])]
    by_cases hd : d.isBlank = true
    · simp [hd]
    · rw [Bool.not_eq_true] at hd
      simp [hd, ih hd]

/-- The first word goes on with what is put in front of it. -/
lemma words_cons_cons {c d : CodePoint} (hc : c.isBlank = false) (hd : d.isBlank = false) (rest : Text) :
    ∃ word more, words (d :: rest) = word :: more ∧ words (c :: d :: rest) = (c :: word) :: more := by
  refine ⟨_, _, words_cons hd rest, ?_⟩
  rw [words_cons hc]
  simp [hd]

/-- No word goes on across a blank. -/
theorem words_append_of_blank (t : Text) {rest : Text} (hrest : ∀ c ∈ rest.head?, c.isBlank = true) :
    words (t ++ rest) = words t ++ words rest := by
  induction t with
  | nil => rfl
  | cons c t ih =>
    cases hc : c.isBlank with
    | true => rw [List.cons_append, words_blank hc, words_blank hc, ih]
    | false =>
      cases t with
      | nil =>
        cases rest with
        | nil => simp [words]
        | cons d rest =>
          have hd : d.isBlank = true := hrest d rfl
          simp [words, hc, hd]
      | cons d t =>
        cases hd : d.isBlank with
        | true => simpa [words, hc, hd] using ih
        | false =>
          -- On both sides the sign becomes the first of the first word.
          obtain ⟨word, more, hword, hlonger⟩ := words_cons_cons hc hd t
          obtain ⟨word', more', hword', hlonger'⟩ := words_cons_cons hc hd (t ++ rest)
          rw [List.cons_append, hword, hword', List.cons_append] at ih
          obtain ⟨rfl, rfl⟩ := List.cons.inj ih
          rw [List.cons_append, List.cons_append, hlonger, hlonger', List.cons_append]

lemma words_of_isWord {w : Text} (hw : w.IsWord) : words w = [w] := by
  obtain ⟨hne, hall⟩ := hw
  cases w with
  | nil => exact absurd rfl hne
  | cons c w =>
    have hplain : ∀ d ∈ w, (!d.isBlank) = true := fun d hd => by
      simp [hall d (List.mem_cons_of_mem _ hd)]
    rw [words_cons (hall c List.mem_cons_self), List.takeWhile_eq_self_iff.mpr hplain,
      List.dropWhile_eq_nil_iff.mpr hplain]
    rfl

lemma words_append {w : Text} (hw : w.IsWord) {rest : Text} (hrest : ∀ c ∈ rest.head?, c.isBlank = true) :
    words (w ++ rest) = w :: words rest := by
  rw [words_append_of_blank w hrest, words_of_isWord hw, List.singleton_append]

lemma isWord_of_mem_words {t w : Text} (hw : w ∈ t.words) : w.IsWord ∧ w <:+: t := by
  -- What is left behind a word is shorter, but not the tail of the text.
  induction h : t.length using Nat.strongRecOn generalizing t with
  | ind n ih =>
    cases t with
    | nil => simp [words] at hw
    | cons c rest =>
      cases hc : c.isBlank with
      | true =>
        rw [words_blank hc] at hw
        obtain ⟨hword, hin⟩ := ih rest.length (by simp [← h]) hw rfl
        exact ⟨hword, hin.trans (List.suffix_cons c rest).isInfix⟩
      | false =>
        rw [words_cons hc, List.mem_cons] at hw
        rcases hw with rfl | hw
        · refine ⟨⟨by simp, ?_⟩, ?_⟩
          · intro d hd
            rcases List.mem_cons.mp hd with rfl | hd
            · exact hc
            · simpa using List.mem_takeWhile_imp hd
          · exact ((List.prefix_cons_inj c).mpr (List.takeWhile_prefix _)).isInfix
        · have hlength := (List.dropWhile_suffix (l := rest) fun d : CodePoint => !d.isBlank).length_le
          obtain ⟨hword, hin⟩ := ih _ (by rw [← h, List.length_cons]; omega) hw rfl
          exact ⟨hword, hin.trans
            ((List.dropWhile_suffix _).trans (List.suffix_cons c rest)).isInfix⟩

/-! ### Trimming -/

lemma isPrefix_trimRight (t : Text) : t.trimRight <+: t := by
  rw [trimRight, ← List.reverse_suffix, List.reverse_reverse]
  exact List.dropWhile_suffix _

lemma head?_trimLeft {t : Text} {c : CodePoint} (h : c ∈ t.trimLeft.head?) : c.isBlank = false := by
  have := List.head?_dropWhile_not CodePoint.isBlank t
  rw [trimLeft] at h
  simp only [Option.mem_def] at h
  simpa [h] using this

lemma trimLeft_of_head? {t : Text} (h : ∀ c ∈ t.head?, c.isBlank = false) : t.trimLeft = t := by
  cases t with
  | nil => rfl
  | cons c t => rw [trimLeft, List.dropWhile_cons_of_neg (by simp [h c rfl])]

lemma head?_trim {t : Text} {c : CodePoint} (h : c ∈ t.trim.head?) : c.isBlank = false := by
  obtain ⟨behind, hbehind⟩ := isPrefix_trimRight t.trimLeft
  refine head?_trimLeft (t := t) ?_
  rw [← hbehind, List.head?_append, ← trim, Option.mem_def.mp h]
  rfl

lemma trimLeft_trim (t : Text) : t.trim.trimLeft = t.trim := trimLeft_of_head? fun _ hc => head?_trim hc

theorem trim_trim (t : Text) : t.trim.trim = t.trim := by
  have hleft : ∀ s : Text, s.trimLeft.trimLeft = s.trimLeft := fun s =>
    trimLeft_of_head? fun _ hc => head?_trimLeft hc
  have hright : ∀ s : Text, s.trimRight.trimRight = s.trimRight := fun s => by
    rw [trimRight, trimRight, List.reverse_reverse, hleft]
  rw [trim, trimLeft_trim, trim, hright]

lemma not_isBlank_getLast?_trim {t : Text} {c : CodePoint} (h : c ∈ t.trim.getLast?) :
    c.isBlank = false := by
  rw [trim, trimRight, List.getLast?_reverse] at h
  exact head?_trimLeft h

lemma trim_of_ends {t : Text} (hhead : ∀ c ∈ t.head?, c.isBlank = false)
    (hlast : ∀ c ∈ t.getLast?, c.isBlank = false) : t.trim = t := by
  have hreverse : ∀ c ∈ t.reverse.head?, c.isBlank = false := by rwa [List.head?_reverse]
  rw [trim, trimLeft_of_head? hhead, trimRight, trimLeft_of_head? hreverse, List.reverse_reverse]

theorem trim_eq_nil_iff {t : Text} : t.trim = [] ↔ t.isBlank = true := by
  rw [trim, trimRight, List.reverse_eq_nil_iff, trimLeft, List.dropWhile_eq_nil_iff, isBlank,
    List.all_eq_true]
  constructor
  · intro h
    have hleft : t.trimLeft = [] := by
      refine List.eq_nil_iff_forall_not_mem.mpr fun c hc => ?_
      cases hstart : t.trimLeft with
      | nil => simp [hstart] at hc
      | cons d rest =>
        have hd : d.isBlank = false := head?_trimLeft (t := t) (by rw [hstart]; rfl)
        rw [h d (by simp [hstart])] at hd
        simp at hd
    exact List.dropWhile_eq_nil_iff.mp hleft
  · intro h c hc
    exact h c ((List.dropWhile_suffix _).mem (List.mem_reverse.mp hc))

/-- What is behind the first word of a trimmed text starts with a blank. -/
lemma head_append_drop {t : Text} (h : ∀ c ∈ t.head?, c.isBlank = false) :
    t.head ++ t.drop t.head.length = t ∧ ∀ c ∈ (t.drop t.head.length).head?, c.isBlank = true := by
  have hhead : t.head = t.takeWhile fun c => !c.isBlank := by rw [head, trimLeft_of_head? h]
  have hsplit := List.takeWhile_append_dropWhile (p := fun c : CodePoint => !c.isBlank) (l := t)
  have hdrop : t.drop t.head.length = t.dropWhile fun c => !c.isBlank := by
    rw [hhead]
    nth_rewrite 2 [← hsplit]
    rw [List.drop_left]
  rw [hdrop]
  refine ⟨by rw [hhead, hsplit], fun c hc => ?_⟩
  have := List.head?_dropWhile_not (fun c : CodePoint => !c.isBlank) t
  rw [Option.mem_def.mp hc] at this
  simpa using this

lemma isInfix_trim (t : Text) : t.trim <:+: t :=
  (isPrefix_trimRight _).isInfix.trans (List.dropWhile_suffix _).isInfix

end CommandWrap.Text
