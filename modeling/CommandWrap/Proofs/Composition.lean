import Mathlib
import CommandWrap.Composition
import CommandWrap.Proofs.Text.Pieces

/-! Operators in a command: what the check for them finds, and that none of them goes on across a blank. -/
namespace CommandWrap.Composition

variable {command : Text}

/-- A doubled bar starts with a bar, so that the check need not look for it. -/
lemma startsPlain_eq_false_iff :
    startsPlain command = false ↔ ∃ operator ∈ operators, operator <+: command := by
  have hdoubled : Text.ofString "||" <+: command → Text.ofString "|" <+: command :=
    fun h => (show Text.ofString "|" <+: Text.ofString "||" from ⟨Text.ofString "|", rfl⟩).trans h
  simp only [startsPlain, operators, Bool.not_eq_false', List.any_cons, List.any_nil, Bool.or_false,
    Bool.or_eq_true, List.isPrefixOf_iff_prefix, List.mem_cons, List.not_mem_nil, or_false,
    exists_eq_or_imp, exists_eq_left]
  grind

theorem isSimple_eq_false_iff :
    isSimple command = false ↔ ∃ operator ∈ operators, operator <:+: command := by
  induction command with
  | nil => simp [isSimple, operators, Text.ofString]
  | cons c command ih =>
    simp only [isSimple, Bool.and_eq_false_iff, startsPlain_eq_false_iff, ih, List.infix_cons_iff,
      and_or_left, exists_or]

theorem operatorsIn_eq_nil_iff : operatorsIn command = [] ↔ isSimple command = true := by
  have hnone : operatorsIn command = [] ↔ ¬ ∃ operator ∈ operators, operator <:+: command := by
    simp only [operatorsIn, List.filter_eq_nil_iff, Text.occursIn_iff, not_exists, not_and]
  rw [hnone, ← isSimple_eq_false_iff, Bool.not_eq_false]

lemma not_isBlank_of_mem_operators : ∀ operator ∈ operators,
    operator ≠ [] ∧ ∀ c ∈ operator, c.isBlank = false := by decide

/-- Operators are not trimmed away. -/
theorem isSimple_trim (command : Text) : isSimple command.trim = isSimple command := by
  have hsame : isSimple command.trim = false ↔ isSimple command = false := by
    simp only [isSimple_eq_false_iff]
    refine exists_congr fun operator => and_congr_right fun hoperator => ?_
    obtain ⟨hne, hplain⟩ := not_isBlank_of_mem_operators operator hoperator
    exact Text.infix_trim_iff hne hplain
  rw [Bool.eq_iff_iff, ← not_iff_not, Bool.not_eq_true, Bool.not_eq_true, hsame]

/-- No operator starts with a blank. -/
lemma isSimple_cons_of_blank {c : CodePoint} (hc : c.isBlank = true) (t : Text) :
    isSimple (c :: t) = isSimple t := by
  have hplain : startsPlain (c :: t) = true := by
    rw [← Bool.not_eq_false, startsPlain_eq_false_iff]
    rintro ⟨operator, hoperator, hfront⟩
    obtain ⟨hne, hall⟩ := not_isBlank_of_mem_operators operator hoperator
    obtain ⟨d, operator, rfl⟩ := List.exists_cons_of_ne_nil hne
    rw [List.cons_prefix_cons] at hfront
    rw [← hfront.1, hall d List.mem_cons_self] at hc
    cases hc
  rw [isSimple, hplain, Bool.true_and]

/-- No operator arises where texts meet at a blank. -/
theorem isSimple_append (t : Text) {rest : Text} (hrest : ∀ c ∈ rest.head?, c.isBlank = true) :
    isSimple (t ++ rest) = (isSimple t && isSimple rest) := by
  have hsame : isSimple (t ++ rest) = false ↔ isSimple t = false ∨ isSimple rest = false := by
    simp only [isSimple_eq_false_iff, ← exists_or, ← and_or_left]
    refine exists_congr fun operator => and_congr_right fun hoperator => ?_
    exact Text.infix_append_iff_of_blank (not_isBlank_of_mem_operators operator hoperator).2 hrest
  rw [Bool.eq_iff_iff, ← not_iff_not, Bool.not_eq_true, Bool.not_eq_true, hsame, Bool.and_eq_false_iff]

/-- A command without operators has no sign that a pipeline or a list is made of. -/
lemma not_mem_of_isSimple {t : Text} (h : isSimple t = true) :
    (CodePoint.ofChar '|') ∉ t ∧ (CodePoint.ofChar ';') ∉ t := by
  have hsign : ∀ c, [c] ∈ operators → c ∉ t := by
    intro c hc hmem
    obtain ⟨before, after, rfl⟩ := List.append_of_mem hmem
    have hfound : isSimple (before ++ c :: after) = false :=
      isSimple_eq_false_iff.mpr ⟨[c], hc, before, after, by simp⟩
    rw [hfound] at h
    cases h
  exact ⟨hsign _ (by decide), hsign _ (by decide)⟩

end CommandWrap.Composition
