import Mathlib
import CommandWrap.Explanation
import CommandWrap.Proofs.Decision.Guards

/-! An explanation against the decision: every line stands on its own, and the lines on the guards lead to
the decision that the last of them names. -/
namespace CommandWrap

/-! ### Quoted texts -/

namespace Text

lemma newline_notMem_hex (width n : Nat) : CodePoint.ofChar '\n' ∉ hex width n := by
  have hdigit : ∀ d < 16, CodePoint.ofChar '\n' ≠ CodePoint.ofChar (Nat.digitChar d) := by decide
  induction width generalizing n with
  | zero => exact List.not_mem_nil
  | succ width ih =>
    rw [hex, List.mem_append, List.mem_singleton]
    exact not_or_intro (ih _) (hdigit _ (Nat.mod_lt n (by decide)))

lemma newline_notMem_numericEscape (c : CodePoint) : CodePoint.ofChar '\n' ∉ numericEscape c := by
  have hmark : ∀ (letter : Char) (digits : Text), CodePoint.ofChar letter ≠ CodePoint.ofChar '\n' →
      CodePoint.ofChar '\n' ∉ digits →
      CodePoint.ofChar '\n' ∉ CodePoint.ofChar '\\' :: CodePoint.ofChar letter :: digits := by
    intro letter digits hletter hdigits hmem
    rcases List.mem_cons.mp hmem with hslash | hmem
    · exact absurd hslash (by decide)
    · rcases List.mem_cons.mp hmem with hsame | hmem
      · exact hletter hsame.symm
      · exact hdigits hmem
  rw [numericEscape]
  split_ifs
  · exact hmark _ _ (by decide) (newline_notMem_hex _ _)
  · exact hmark _ _ (by decide) (newline_notMem_hex _ _)
  · exact hmark _ _ (by decide) (newline_notMem_hex _ _)

lemma newline_notMem_quotedCodePoint {quote : CodePoint} (hquote : quote ≠ CodePoint.ofChar '\n')
    (c : CodePoint) : CodePoint.ofChar '\n' ∉ quotedCodePoint quote c := by
  rw [quotedCodePoint]
  split_ifs with hmark hfeed
  · have hc : c ≠ CodePoint.ofChar '\n' := by
      rintro rfl
      exact hmark.elim hquote.symm (by decide)
    simp only [List.mem_cons, List.not_mem_nil, or_false, not_or]
    exact ⟨by decide, hc.symm⟩
  · decide
  · decide
  · decide
  · rw [List.mem_singleton]
    exact Ne.symm hfeed
  · exact newline_notMem_numericEscape c

lemma quoteFor_cases (t : Text) :
    quoteFor t = CodePoint.ofChar '\'' ∨ quoteFor t = CodePoint.ofChar '"' := by
  rw [quoteFor]
  split_ifs
  · exact .inr rfl
  · exact .inl rfl

/-- A quoted text stands on one line. -/
theorem newline_notMem_quoted (t : Text) : CodePoint.ofChar '\n' ∉ t.quoted := by
  have hquote : quoteFor t ≠ CodePoint.ofChar '\n' := by
    rcases quoteFor_cases t with h | h <;> rw [h] <;> decide
  simp only [quoted, List.mem_cons, List.mem_append, List.mem_flatMap, List.not_mem_nil, or_false, not_or,
    not_exists, not_and]
  exact ⟨⟨hquote.symm, fun c _ => newline_notMem_quotedCodePoint hquote c⟩, hquote.symm⟩

lemma quotedCodePoint_ne_nil (quote c : CodePoint) : quotedCodePoint quote c ≠ [] := by
  rw [quotedCodePoint, numericEscape]
  split_ifs <;> simp [ofString]

/-- Nothing shows between the quotes only if nothing stands there. -/
lemma quoted_eq_empty_iff {t : Text} : t.quoted = ofString "''" ↔ t = [] := by
  constructor
  · intro h
    have hlength : (t.flatMap (quotedCodePoint (quoteFor t))).length = 0 := by
      have := congrArg List.length h
      simpa [quoted, ofString] using this
    rw [List.length_eq_zero_iff, List.flatMap_eq_nil_iff] at hlength
    exact List.eq_nil_iff_forall_not_mem.mpr fun c hc => quotedCodePoint_ne_nil _ c (hlength c hc)
  · rintro rfl
    decide

/-- What starts with a quote is no plain word. -/
lemma quoted_append_ne_none (t rest : Text) : t.quoted ++ rest ≠ ofString "none" := by
  intro h
  have hfirst : quoteFor t = CodePoint.ofChar 'n' := (List.cons.inj h).1
  rcases quoteFor_cases t with hquote | hquote <;> rw [hquote] at hfirst <;>
    exact absurd hfirst (by decide)

end Text

namespace Explanation

open Text

variable {depth : Nat} {settings : Settings} {command : Text}

/-! ### Lines that stand on their own -/

lemma newline_notMem_yesNo (b : Bool) : CodePoint.ofChar '\n' ∉ yesNo b := by
  cases b <;> decide

lemma newline_notMem_operatorsText (command : Text) :
    CodePoint.ofChar '\n' ∉ operatorsText (Composition.operatorsIn command) := by
  have hevery : ∀ found ∈ Composition.operators.sublists, CodePoint.ofChar '\n' ∉ operatorsText found := by
    decide
  exact hevery _ (List.mem_sublists.mpr List.filter_sublist)

lemma newline_notMem_patternText (pattern? : Option Text) :
    CodePoint.ofChar '\n' ∉ patternText pattern? := by
  cases pattern? with
  | none => decide
  | some pattern =>
    rw [patternText]
    split_ifs
    · decide
    · exact newline_notMem_quoted pattern

lemma newline_notMem_aliasText (aliases : Entries Text) (head : Text) :
    CodePoint.ofChar '\n' ∉ aliasText aliases head := by
  rw [aliasText]
  split
  · exact newline_notMem_append (newline_notMem_append (newline_notMem_quoted head) (by decide))
      (newline_notMem_quoted _)
  · decide

lemma newline_notMem_decisionText (decision : Decision) :
    CodePoint.ofChar '\n' ∉ decisionText decision := by
  cases decision with
  | unchanged guard => cases guard <;> decide
  | rewritten kind command =>
    rw [decisionText]
    refine newline_notMem_append ?_ (newline_notMem_quoted command)
    cases kind <;> decide

lemma newline_notMem_shapeLines (depth : Nat) (decision : Decision) (trimmed : Text) :
    ∀ line ∈ shapeLines depth decision trimmed, CodePoint.ofChar '\n' ∉ line := by
  have hname : ∀ shape : Shell.Shape,
      CodePoint.ofChar '\n' ∉ Text.ofString "Shell parser:    " ++ shape.name := by
    intro shape
    cases shape <;> decide
  have hnote : CodePoint.ofChar '\n' ∉ note := by decide
  intro line hline
  simp only [shapeLines] at hline
  split_ifs at hline
  · cases hline
  · rcases List.mem_pair.mp hline with rfl | rfl
    · exact hname _
    · exact hnote
  · rw [List.mem_singleton] at hline
    exact hline ▸ hname _

theorem newline_notMem_line :
    ∀ line ∈ lines depth settings command, CodePoint.ofChar '\n' ∉ line := by
  intro line hline
  rw [lines] at hline
  rcases List.mem_append.mp hline with hline | hline
  · simp only [List.mem_cons, List.not_mem_nil, or_false] at hline
    rcases hline with rfl | rfl | rfl | rfl | rfl | rfl | rfl
    · exact newline_notMem_append (by decide) (newline_notMem_quoted _)
    · exact newline_notMem_append (by decide) (newline_notMem_yesNo _)
    · exact newline_notMem_append (by decide) (newline_notMem_yesNo _)
    · exact newline_notMem_append (by decide) (newline_notMem_operatorsText _)
    · exact newline_notMem_append (by decide) (newline_notMem_patternText _)
    · exact newline_notMem_append (by decide) (newline_notMem_aliasText _ _)
    · exact newline_notMem_append (by decide) (newline_notMem_decisionText _)
  · exact newline_notMem_shapeLines _ _ _ line hline

/-- Whatever the command, a pattern or an alias holds, the rendered text is cut where its lines end. -/
theorem splitOn_render :
    splitOn (CodePoint.ofChar '\n') (render depth settings command) = lines depth settings command :=
  splitOn_lines (List.cons_ne_nil _ _) newline_notMem_line

lemma reason_eq_compound_iff {decision : Decision} :
    decision.reason = "compound command" ↔ decision = .unchanged .compound := by
  cases decision with
  | unchanged guard => cases guard <;> decide
  | rewritten kind rewritten =>
    have hreason : kind.reason ≠ "compound command" := by cases kind <;> decide
    exact iff_of_false hreason (by simp)

/-- The shape of a command takes one line, and a refusal that it does not bear out takes another. -/
theorem length_lines : (lines depth settings command).length =
    if command.trim = [] then 7
    else if (settings.decision command).reason = "compound command" ∧
      Shell.Shape.ofText depth command.trim = .simple then 9 else 8 := by
  simp only [reason_eq_compound_iff, lines, shapeLines, List.length_append]
  split_ifs <;> rfl

/-! ### What the lines say -/

/-- The guard that stops the command, read off the lines above the decision. -/
def guardTold? (lines : List Text) : Option Guard :=
  if lines[1]? = some (ofString "Enabled:         no") then some .disabled
  else if lines[0]? = some (ofString "Command:         ''") then some .empty
  else if lines[2]? = some (ofString "Already wrapped: yes") then some .alreadyWrapped
  else if lines[3]? ≠ some (ofString "Operators:       none") then some .compound
  else if lines[4]? = some (ofString "Pattern:         none") then some .noMatch
  else none

/-- The kind of rewriting, read off the line on the alias. -/
def kindTold (lines : List Text) : RewriteKind :=
  if lines[5]? = some (ofString "Alias:           none") then .byPrefix else .byAlias

lemma yesNo_eq_yes_iff {b : Bool} : yesNo b = ofString "yes" ↔ b = true := by
  cases b <;> decide

lemma yesNo_eq_no_iff {b : Bool} : yesNo b = ofString "no" ↔ b = false := by
  cases b <;> decide

lemma operatorsText_eq_none_iff :
    operatorsText (Composition.operatorsIn command) = ofString "none" ↔ Composition.operatorsIn command = [] := by
  have hevery : ∀ found ∈ Composition.operators.sublists,
      operatorsText found = ofString "none" ↔ found = [] := by decide
  exact hevery _ (List.mem_sublists.mpr List.filter_sublist)

lemma quoted_ne_none (t : Text) : t.quoted ≠ ofString "none" := by
  rw [← List.append_nil t.quoted]
  exact quoted_append_ne_none t []

lemma patternText_eq_none_iff {pattern? : Option Text} :
    patternText pattern? = ofString "none" ↔ pattern?.getD [] = [] := by
  cases pattern? with
  | none => exact iff_of_true rfl rfl
  | some pattern =>
    rw [patternText, Option.getD_some]
    split_ifs with hempty
    · exact iff_of_true rfl hempty
    · exact iff_of_false (quoted_ne_none pattern) hempty

lemma aliasText_eq_none_iff {aliases : Entries Text} {head : Text} :
    aliasText aliases head = ofString "none" ↔ aliases.hasKey head = false := by
  unfold aliasText Entries.hasKey
  cases aliases.get? head with
  | none => exact iff_of_true rfl rfl
  | some replacement =>
    dsimp only
    rw [List.append_assoc]
    exact iff_of_false (quoted_append_ne_none head _) (by simp)

lemma line_eq_iff {line? : Option Text} {shown value : Text} (label : Text)
    (h : line? = some (label ++ shown)) : line? = some (label ++ value) ↔ shown = value := by
  rw [h, Option.some_inj]
  exact List.append_right_inj label

lemma enabled_told : (lines depth settings command)[1]? = some (ofString "Enabled:         no") ↔
    Guard.disabled.Stops settings command :=
  (line_eq_iff (ofString "Enabled:         ") rfl).trans yesNo_eq_no_iff

lemma empty_told : (lines depth settings command)[0]? = some (ofString "Command:         ''") ↔
    Guard.empty.Stops settings command :=
  (line_eq_iff (ofString "Command:         ") rfl).trans
    (quoted_eq_empty_iff.trans Guard.stops_empty_iff.symm)

lemma alreadyWrapped_told : (lines depth settings command)[2]? = some (ofString "Already wrapped: yes") ↔
    Guard.alreadyWrapped.Stops settings command :=
  (line_eq_iff (ofString "Already wrapped: ") rfl).trans
    (yesNo_eq_yes_iff.trans Guard.stops_alreadyWrapped_iff.symm)

lemma compound_told : (lines depth settings command)[3]? ≠ some (ofString "Operators:       none") ↔
    Guard.compound.Stops settings command := by
  rw [Guard.stops_compound_iff, ← Bool.not_eq_true, ← Composition.operatorsIn_eq_nil_iff]
  exact not_congr ((line_eq_iff (ofString "Operators:       ") rfl).trans operatorsText_eq_none_iff)

/-- An empty pattern is not shown, but it fits only where the command is empty. -/
lemma noMatch_told (h : ¬ Guard.empty.Stops settings command) :
    (lines depth settings command)[4]? = some (ofString "Pattern:         none") ↔
      Guard.noMatch.Stops settings command := by
  rw [Guard.stops_empty_iff] at h
  rw [Guard.stops_noMatch_iff, Pattern.anyFits, Option.isSome_eq_false_iff, Option.isNone_iff_eq_none]
  refine ((line_eq_iff (ofString "Pattern:         ") rfl).trans patternText_eq_none_iff).trans ?_
  cases hfit : Pattern.firstFit? command.trim settings.patterns with
  | none => exact iff_of_true rfl rfl
  | some pattern =>
    refine iff_of_false ?_ (Option.some_ne_none pattern)
    rintro rfl
    exact h (Pattern.trim_of_fits_nil (List.find?_some hfit))

/-- The lines above the decision tell the guard that stops the command. -/
theorem guardTold?_lines : guardTold? (lines depth settings command) = Guard.first? settings command := by
  simp only [guardTold?, Guard.first?, Guard.inOrder, List.find?_cons, List.find?_nil, enabled_told,
    empty_told, alreadyWrapped_told, compound_told]
  by_cases hempty : Guard.empty.Stops settings command
  · simp only [hempty, if_true, decide_true]
    split_ifs <;> simp_all
  · simp only [noMatch_told hempty]
    split_ifs <;> simp_all

theorem kindTold_lines : kindTold (lines depth settings command) =
    if settings.aliases.hasKey command.trim.head then .byAlias else .byPrefix := by
  have htold : (lines depth settings command)[5]? = some (ofString "Alias:           none") ↔
      settings.aliases.hasKey command.trim.head = false :=
    (line_eq_iff (ofString "Alias:           ") rfl).trans aliasText_eq_none_iff
  rw [kindTold]
  simp only [htold]
  cases settings.aliases.hasKey command.trim.head <;> rfl

/-- The text of an explanation comes apart into seven to nine lines, and the lines above the one on the
decision lead to it: the first guard that they show to fail is the reason to leave the command as it is,
and if none fails, the line on the alias tells the kind of the rewriting. -/
theorem render_tells_decision (depth : Nat) (settings : Settings) (command : Text) :
    let told := splitOn (CodePoint.ofChar '\n') (render depth settings command)
    told.length = (if command.trim = [] then 7
      else if (settings.decision command).reason = "compound command" ∧
        Shell.Shape.ofText depth command.trim = .simple then 9 else 8) ∧
    match guardTold? told with
    | some guard => settings.decision command = .unchanged guard ∧
        told[6]? = some (ofString "Decision:        unchanged (" ++ guard.reason ++ ofString ")")
    | none => ∃ rewritten, settings.decision command = .rewritten (kindTold told) rewritten ∧
        told[6]? = some (ofString "Decision:        rewritten (" ++ (kindTold told).reason ++
          ofString ") -> " ++ rewritten.quoted) := by
  intro told
  have htold : told = lines depth settings command := splitOn_render
  have hline : told[6]? = some (ofString "Decision:        " ++ decisionText (settings.decision command)) := by
    rw [htold]
    rfl
  refine ⟨htold ▸ length_lines, ?_⟩
  rw [hline, htold, guardTold?_lines, kindTold_lines, Settings.decision_eq]
  cases Guard.first? settings command with
  | some guard => exact ⟨rfl, rfl⟩
  | none => exact ⟨_, rfl, rfl⟩

end Explanation
end CommandWrap
