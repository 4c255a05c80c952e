import Mathlib
import CommandWrap.Pattern
import CommandWrap.Proofs.Text.Pieces

/-! Patterns and words: a pattern that fits a command has the first words of it. With single spaces between
the words this is all that there is to fitting. -/
namespace CommandWrap

/-! ### Single spaces -/

namespace Text

/-- One space stands between neighbouring words, and none at the ends. -/
def IsSingleSpaced (t : Text) : Prop := join (Text.ofString " ") t.words = t

instance (t : Text) : Decidable t.IsSingleSpaced := inferInstanceAs (Decidable (_ = t))

lemma join_append (separator : Text) {parts more : List Text} (hparts : parts ≠ []) (hmore : more ≠ []) :
    join separator (parts ++ more) = join separator parts ++ separator ++ join separator more := by
  induction parts with
  | nil => exact absurd rfl hparts
  | cons part parts ih =>
    cases parts with
    | nil =>
      obtain ⟨next, more, rfl⟩ := List.exists_cons_of_ne_nil hmore
      simp [join, List.intercalate_cons_cons]
    | cons next parts =>
      have hrest := ih (List.cons_ne_nil next parts)
      simp only [join, List.cons_append, List.intercalate_cons_cons] at hrest ⊢
      rw [hrest]
      simp only [List.append_assoc]

end Text

namespace Pattern

variable {command pattern : Text}

lemma fits_iff :
    fits command pattern = true ↔ command = pattern ∨ pattern ++ Text.ofString " " <+: command := by
  simp only [fits, Bool.or_eq_true, decide_eq_true_eq, List.isPrefixOf_iff_prefix]

/-- An empty pattern fits nothing else, as no space is left in front. -/
lemma trim_of_fits_nil (h : fits command.trim [] = true) : command.trim = [] := by
  rcases fits_iff.mp h with h | ⟨behind, hbehind⟩
  · exact h
  · have hhead : CodePoint.ofChar ' ' ∈ command.trim.head? := by
      rw [← hbehind]
      rfl
    exact absurd (Text.head?_trim hhead) (by decide)

/-- Behind a pattern that fits, the command ends or goes on with a space. -/
lemma exists_behind_of_fits (h : fits command pattern = true) :
    ∃ behind, command = pattern ++ behind ∧ ∀ c ∈ behind.head?, c = CodePoint.ofChar ' ' := by
  rcases fits_iff.mp h with rfl | ⟨behind, rfl⟩
  · exact ⟨[], (List.append_nil _).symm, by simp⟩
  · refine ⟨Text.ofString " " ++ behind, List.append_assoc _ _ _, fun c hc => ?_⟩
    exact (Option.some.inj hc).symm

/-! ### Words -/

lemma exists_blank_of_fits (h : fits command pattern = true) :
    ∃ behind, command = pattern ++ behind ∧ ∀ c ∈ behind.head?, c.isBlank = true := by
  obtain ⟨behind, hsplit, hspace⟩ := exists_behind_of_fits h
  refine ⟨behind, hsplit, fun c hc => ?_⟩
  rw [hspace c hc]
  exact Text.isBlank_space

/-- The words of a pattern that fits are the first words of the command. -/
theorem words_prefix_of_fits (h : fits command pattern = true) : pattern.words <+: command.words := by
  obtain ⟨behind, rfl, hblank⟩ := exists_blank_of_fits h
  exact ⟨behind.words, (Text.words_append_of_blank pattern hblank).symm⟩

theorem head_of_fits (hpattern : pattern.isBlank = false) (h : fits command pattern = true) :
    pattern.head = command.head := by
  obtain ⟨behind, rfl, hblank⟩ := exists_blank_of_fits h
  exact (Text.head_append_of_blank hpattern hblank).symm

/-- With single spaces, a pattern whose words are the first words of the command fits it. -/
theorem fits_of_words_prefix (hne : pattern ≠ []) (hpattern : pattern.IsSingleSpaced)
    (hcommand : command.IsSingleSpaced) (h : pattern.words <+: command.words) :
    fits command pattern = true := by
  obtain ⟨more, hmore⟩ := h
  have hwords : pattern.words ≠ [] := fun hnone => hne (by rw [← hpattern, hnone]; rfl)
  cases more with
  | nil =>
    rw [List.append_nil] at hmore
    exact fits_iff.mpr (.inl (by rw [← hcommand, ← hmore, hpattern]))
  | cons word more =>
    refine fits_iff.mpr (.inr ⟨Text.join (Text.ofString " ") (word :: more), ?_⟩)
    calc pattern ++ Text.ofString " " ++ Text.join (Text.ofString " ") (word :: more)
        = Text.join (Text.ofString " ") (pattern.words ++ word :: more) := by
          rw [Text.join_append _ hwords (List.cons_ne_nil word more), hpattern]
      _ = command := by rw [hmore, hcommand]

lemma not_isBlank_of_trim (hne : pattern ≠ []) (htrim : pattern.trim = pattern) :
    pattern.isBlank = false := by
  rw [← Bool.not_eq_true, ← Text.trim_eq_nil_iff, htrim]
  exact hne

/-- The first pattern that fits a command has the first words of it, and so its first word. With single
spaces it is the first pattern whose words are the first words of the command. -/
theorem firstFit?_by_words (command : Text) {patterns : List Text}
    (hpatterns : ∀ pattern ∈ patterns, pattern ≠ [] ∧ pattern.trim = pattern) :
    (∀ pattern, firstFit? command patterns = some pattern →
      (∃ earlier later, patterns = earlier ++ pattern :: later ∧ ∀ other ∈ earlier,
        ¬ (command = other ∨ other ++ Text.ofString " " <+: command)) ∧
      pattern.words <+: command.words ∧ pattern.head = command.head) ∧
    (command.IsSingleSpaced → (∀ pattern ∈ patterns, pattern.IsSingleSpaced) →
      firstFit? command patterns = patterns.find? (fun pattern => pattern.words <+: command.words) ∧
      (firstFit? command patterns = none ↔
        ∀ pattern ∈ patterns, ¬ pattern.words <+: command.words)) := by
  constructor
  · intro pattern hfirst
    obtain ⟨hfits, earlier, later, hsplit, hothers⟩ := List.find?_eq_some_iff_append.mp hfirst
    obtain ⟨hne, htrim⟩ := hpatterns pattern (List.mem_of_find?_eq_some hfirst)
    refine ⟨⟨earlier, later, hsplit, fun other hother hfit => ?_⟩, words_prefix_of_fits hfits,
      head_of_fits (not_isBlank_of_trim hne htrim) hfits⟩
    have hnot := hothers other hother
    rw [fits_iff.mpr hfit] at hnot
    cases hnot
  · intro hcommand hspaced
    have hsame : ∀ pattern ∈ patterns,
        fits command pattern = decide (pattern.words <+: command.words) := by
      intro pattern hpattern
      rw [Bool.eq_iff_iff, decide_eq_true_iff]
      exact ⟨words_prefix_of_fits,
        fits_of_words_prefix (hpatterns pattern hpattern).1 (hspaced pattern hpattern) hcommand⟩
    have hfind : firstFit? command patterns =
        patterns.find? (fun pattern => pattern.words <+: command.words) := List.find?_congr hsame
    refine ⟨hfind, ?_⟩
    rw [hfind, List.find?_eq_none]
    simp only [decide_eq_true_iff]

/-! ### Patterns of one and of two words -/

def gitPatterns : List Text := ["gitk", "git status", "git"]

/-- Of two patterns that fit, the earlier one is found, and it is the first whose words come first. -/
theorem firstFit?_by_words_git :
    (∀ pattern ∈ gitPatterns, pattern ≠ [] ∧ pattern.trim = pattern) ∧
      firstFit? (Text.ofString "git status -s") gitPatterns = some (Text.ofString "git status") ∧
      Text.words (Text.ofString "git status") <+: Text.words (Text.ofString "git status -s") ∧
      gitPatterns.find? (fun pattern => pattern.words <+: Text.words (Text.ofString "git status -s")) =
        some (Text.ofString "git status") := by
  have hpatterns : ∀ pattern ∈ gitPatterns, pattern ≠ [] ∧ pattern.trim = pattern := by decide
  have hspaced : ∀ pattern ∈ gitPatterns, pattern.IsSingleSpaced := by decide
  have hfirst : firstFit? (Text.ofString "git status -s") gitPatterns =
      some (Text.ofString "git status") := by decide
  obtain ⟨hfound, hsame⟩ := firstFit?_by_words (Text.ofString "git status -s") hpatterns
  exact ⟨hpatterns, hfirst, (hfound _ hfirst).2.1, (hsame (by decide) hspaced).1.symm.trans hfirst⟩

/-- Words that come first do not suffice where a tab stands between them. -/
example : Text.words (Text.ofString "git status") <+: Text.words (Text.ofString "git\tstatus") ∧
    fits (Text.ofString "git\tstatus") (Text.ofString "git status") = false := by decide

end Pattern
end CommandWrap
