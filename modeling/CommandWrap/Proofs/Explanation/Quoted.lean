import Mathlib
import CommandWrap.Proofs.Explanation
import CommandWrap.Proofs.Shell.Literal

/-! Operators between single quotes: the check for operators refuses the command, the grammar sees nothing
in it, and the explanation says so. -/
namespace CommandWrap.Explanation

open Text Shell Shell.Lexer

variable {depth : Nat} {settings : Settings} {command : Text}

/-- The explanation of a refusal that the grammar does not bear out ends with the note. -/
lemma getLast?_told (hdecision : settings.decision command = .unchanged .compound)
    (hshape : Shape.ofText depth command.trim = .simple) :
    (splitOn (CodePoint.ofChar '\n') (render depth settings command)).getLast? = some note := by
  have hne : command.trim ≠ [] := by
    intro hempty
    rw [hempty] at hshape
    cases hshape
  have hshapeLines : shapeLines depth (settings.decision command) command.trim =
      [Text.ofString "Shell parser:    " ++ Shape.simple.name, note] := by
    rw [shapeLines, if_neg hne]
    dsimp only
    rw [hshape, if_pos ⟨hdecision, rfl⟩]
  rw [splitOn_render, lines, hshapeLines, List.getLast?_append_of_ne_nil _ (List.cons_ne_nil _ _)]
  rfl

/-- The search for a text between single quotes. -/
def search (t : Text) : Text := Text.ofString "grep '" ++ t ++ Text.ofString "' file"

lemma search_eq_literals (t : Text) :
    search t = Text.ofString "grep" ++ spaced [singleQuoted t, Text.ofString "file"] := by
  simp [search, spaced, singleQuoted, Text.ofString]

lemma trim_search (t : Text) : (search t).trim = search t := by
  have hend : search t = (Text.ofString "grep '" ++ t ++ Text.ofString "' fil") ++ [CodePoint.ofChar 'e'] := by
    rw [List.append_assoc]
    rfl
  refine trim_of_ends (fun c hc => ?_) fun c hc => ?_
  · obtain rfl := Option.some.inj (show some (CodePoint.ofChar 'g') = some c from hc)
    decide
  · rw [hend, List.getLast?_concat, Option.mem_def] at hc
    obtain rfl := Option.some.inj hc
    decide

lemma ofText_search {t : Text} (ht : CodePoint.ofChar '\'' ∉ t) : Shape.ofText depth (search t) = .simple := by
  have hgrep : IsBareWord (Text.ofString "grep") := by decide +kernel
  have hfile : IsBareWord (Text.ofString "file") := by decide +kernel
  rw [search_eq_literals]
  refine ofText_of_literals hgrep fun w hw => ?_
  rcases List.mem_pair.mp hw with rfl | rfl
  · exact ⟨isLiteral_singleQuoted ht, [], expandWithin_singleQuoted _ t, rfl⟩
  · exact ⟨hfile.isLiteral, [], expandWithin_bare _ hfile, rfl⟩

lemma decision_search {t : Text} (henabled : settings.enabled = true)
    (hoperator : ∃ operator ∈ Composition.operators, operator <:+: t) :
    settings.decision (search t) = .unchanged .compound := by
  have hempty : search t ≠ [] := List.cons_ne_nil _ _
  have hwrapped : Rewriting.isWrapped (search t) = false := rfl
  have hsimple : Composition.isSimple (search t) = false := by
    obtain ⟨operator, hmem, hin⟩ := hoperator
    exact Composition.isSimple_eq_false_iff.mpr ⟨operator, hmem, hin.trans ⟨_, _, rfl⟩⟩
  rw [Settings.decision, trim_search]
  dsimp only
  rw [henabled, if_neg (by decide), if_neg hempty, hwrapped, if_neg Bool.false_ne_true, hsimple,
    if_pos (by decide)]

/-- Whatever else stands between the single quotes, an operator among it makes the command a composed one
by its text and leaves it a simple one by the grammar, and the explanation ends with the note on that. -/
theorem search_noted (depth : Nat) {t : Text} (ht : CodePoint.ofChar '\'' ∉ t)
    (hoperator : ∃ operator ∈ (["|", "&&", ";", "<<"] : List Text), operator <:+: t) :
    ({} : Settings).decision (search t) = .unchanged .compound ∧
      Shape.ofText depth (search t) = .simple ∧
      (splitOn (CodePoint.ofChar '\n') (render depth {} (search t))).getLast? = some note := by
  have hsubset : (["|", "&&", ";", "<<"] : List Text) ⊆ Composition.operators := by decide
  obtain ⟨operator, hmem, hin⟩ := hoperator
  have hdecision : ({} : Settings).decision (search t) = .unchanged .compound :=
    decision_search rfl ⟨operator, hsubset hmem, hin⟩
  exact ⟨hdecision, ofText_search ht, getLast?_told hdecision ((trim_search t).symm ▸ ofText_search ht)⟩

/-- A substitution, a joined line end, a double quote, a comment sign and a lone backquote between the
quotes. -/
theorem search_noted_motley :
    ({} : Settings).decision (search (Text.ofString "$(a)\\\n\"# && `")) = .unchanged .compound ∧
      Shape.ofText 94 (search (Text.ofString "$(a)\\\n\"# && `")) = .simple ∧
      (splitOn (CodePoint.ofChar '\n') (render 94 {} (search (Text.ofString "$(a)\\\n\"# && `")))).getLast? =
        some note :=
  search_noted 94 (by decide) ⟨Text.ofString "&&", by decide, by decide⟩

end CommandWrap.Explanation
