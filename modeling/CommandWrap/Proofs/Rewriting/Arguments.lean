import Mathlib
import CommandWrap.Proofs.Composition
import CommandWrap.Proofs.Rewriting

/-! Rewriting and arguments. Only the first word of a command is touched: what stands behind it is kept as
it is, and no operator arises where the replacement meets it. -/
namespace CommandWrap

/-- Once trimmed, the text is a word and what stands behind it, which does not go on with the word. -/
structure Text.IsCut (t word rest : Text) : Prop where
  trimmed : t.trim = word ++ rest
  word : word.IsWord
  behind : ∀ c ∈ rest.head?, c.isBlank = true

namespace Text

lemma isWord_head {t : Text} (h : t.isBlank = false) : t.head.IsWord := by
  have hfirst : t.head ∈ t.words.head? := by simp [head?_words, h]
  exact (isWord_of_mem_words (List.mem_of_head? hfirst)).1

/-- A text that is not blank starts with a word. -/
lemma isCut_head {t : Text} (h : t.isBlank = false) : t.IsCut t.head (t.trim.drop t.head.length) := by
  obtain ⟨hsplit, hbehind⟩ := head_append_drop fun _ => head?_trim (t := t)
  rw [head_trim] at hsplit hbehind
  exact ⟨hsplit.symm, isWord_head h, hbehind⟩

lemma IsCut.words {t word rest : Text} (h : t.IsCut word rest) : t.words = word :: rest.words := by
  rw [← words_trim, h.trimmed, words_append h.word h.behind]

end Text

namespace Rewriting

open CommandWrap.Composition

variable {aliases : Entries Text} {command rest v : Text}

lemma rewrite_of_alias (hcut : command.IsCut command.head rest) (hv : aliases.get? command.head = some v) :
    rewrite aliases command = v ++ rest := by
  simp only [rewrite, Text.head_trim, hv]
  rw [hcut.trimmed, List.drop_left]

lemma rewrite_of_no_alias (hnone : aliases.get? command.head = none) :
    rewrite aliases command = Text.ofString "rtk" ++ CodePoint.ofChar ' ' :: command.trim := by
  simp only [rewrite, Text.head_trim, hnone]
  rfl

lemma isSimple_rest (hcut : command.IsCut command.head rest) (h : isSimple command = true) :
    isSimple rest = true := by
  rw [← isSimple_trim, hcut.trimmed, isSimple_append _ hcut.behind, Bool.and_eq_true] at h
  exact h.2

/-- Only the first word of a command is touched. Its alias takes its place, or the compressor goes in front;
all arguments stay, and no operator is in the rewritten command but those of the alias. -/
theorem rewrite_keeps_arguments (aliases : Entries Text) (h : command.isBlank = false) :
    ∃ rest, command.IsCut command.head rest ∧
      (∀ v, aliases.get? command.head = some v →
        rewrite aliases command = v ++ rest ∧
        (rewrite aliases command).words = v.words ++ command.words.tail ∧
        (isSimple command = true → (isSimple (rewrite aliases command) = true ↔ isSimple v = true))) ∧
      (aliases.get? command.head = none →
        rewrite aliases command = Text.ofString "rtk " ++ command.head ++ rest ∧
        (rewrite aliases command).words = Text.ofString "rtk" :: command.words ∧
        (isSimple command = true → isSimple (rewrite aliases command) = true)) := by
  obtain ⟨rest, hcut⟩ : ∃ rest, command.IsCut command.head rest := ⟨_, Text.isCut_head h⟩
  refine ⟨rest, hcut, fun v hv => ?_, fun hnone => ?_⟩
  · have hrewrite := rewrite_of_alias hcut hv
    refine ⟨hrewrite, ?_, fun hsimple => ?_⟩
    · rw [hrewrite, hcut.words, List.tail_cons, Text.words_append_of_blank v hcut.behind]
    · rw [hrewrite, isSimple_append v hcut.behind, isSimple_rest hcut hsimple, Bool.and_true]
  · have hrewrite := rewrite_of_no_alias hnone
    have hspace : ∀ c ∈ (CodePoint.ofChar ' ' :: command.trim).head?, c.isBlank = true := by
      simp [Text.isBlank_space]
    refine ⟨?_, ?_, fun hsimple => ?_⟩
    · rw [hrewrite, hcut.trimmed, List.append_assoc]
      rfl
    · have hword : Text.IsWord (Text.ofString "rtk") := by decide
      rw [hrewrite, Text.words_append hword hspace, Text.words_blank Text.isBlank_space, Text.words_trim]
    · have hcompressor : isSimple (Text.ofString "rtk") = true := by decide
      rw [hrewrite, isSimple_append _ hspace, isSimple_cons_of_blank Text.isBlank_space, isSimple_trim,
        hcompressor, hsimple, Bool.and_true]

/-- A tab behind the first word stays a tab, and an argument that names the command is left alone. -/
theorem rewrite_keeps_arguments_cat :
    Text.isBlank (Text.ofString " cat\tcat -n ") = false ∧
      (rewrite defaultAliases (Text.ofString " cat\tcat -n ")).words =
        ["rtk", "read", "cat", "-n"] ∧
      isSimple (rewrite defaultAliases (Text.ofString " cat\tcat -n ")) = true := by
  have hblank : Text.isBlank (Text.ofString " cat\tcat -n ") = false := by decide
  obtain ⟨rest, -, halias, -⟩ := rewrite_keeps_arguments defaultAliases hblank
  obtain ⟨-, hwords, hsimple⟩ := halias (Text.ofString "rtk read") (by decide)
  exact ⟨hblank, by rw [hwords]; decide, (hsimple (by decide)).mpr (by decide)⟩

end Rewriting
end CommandWrap
