import Mathlib
import CommandWrap.Proofs.Composition
import CommandWrap.Proofs.Decision.Repeated
import CommandWrap.Proofs.Pattern

/-! The guards as conditions on a command as it is given: the first that stops it decides why it is left
as it is, and a command that none of them stops is rewritten. -/
namespace CommandWrap

namespace Guard

variable {settings : Settings} {command pattern : Text}

/-- The guards in the order in which they are tried. -/
def inOrder : List Guard := [disabled, empty, alreadyWrapped, compound, noMatch]

/-- What a guard does not let pass. -/
def Stops (settings : Settings) (command : Text) : Guard → Prop
  | disabled => settings.enabled = false
  | empty => ∀ c ∈ command, c.isBlank = true
  | alreadyWrapped => Text.ofString "rtk " <+: command.trim
  | compound => ∃ operator ∈ Composition.operators, operator <:+: command
  | noMatch => ∀ pattern ∈ settings.patterns,
    ¬ (command.trim = pattern ∨ pattern ++ Text.ofString " " <+: command.trim)

instance : DecidablePred (Stops settings command)
  | disabled => inferInstanceAs (Decidable (settings.enabled = false))
  | empty => inferInstanceAs (Decidable (∀ c ∈ command, c.isBlank = true))
  | alreadyWrapped => inferInstanceAs (Decidable (Text.ofString "rtk " <+: command.trim))
  | compound =>
    inferInstanceAs (Decidable (∃ operator ∈ Composition.operators, operator <:+: command))
  | noMatch => inferInstanceAs (Decidable (∀ pattern ∈ settings.patterns,
    ¬ (command.trim = pattern ∨ pattern ++ Text.ofString " " <+: command.trim)))

/-- The first guard that does not let the command pass. -/
def first? (settings : Settings) (command : Text) : Option Guard :=
  inOrder.find? fun guard => guard.Stops settings command

lemma stops_empty_iff : empty.Stops settings command ↔ command.trim = [] := by
  simp only [Stops, Text.trim_eq_nil_iff, Text.isBlank, List.all_eq_true]

lemma stops_alreadyWrapped_iff :
    alreadyWrapped.Stops settings command ↔ Rewriting.isWrapped command.trim = true :=
  Rewriting.isWrapped_iff.symm

lemma stops_compound_iff :
    compound.Stops settings command ↔ Composition.isSimple command.trim = false := by
  rw [Composition.isSimple_trim]
  exact Composition.isSimple_eq_false_iff.symm

lemma stops_noMatch_iff :
    noMatch.Stops settings command ↔ Pattern.anyFits command.trim settings.patterns = false := by
  simp only [Stops, Pattern.anyFits, Pattern.firstFit?, Option.isSome_eq_false_iff,
    Option.isNone_iff_eq_none, List.find?_eq_none, Pattern.fits_iff]

/-- What a command has to be like so that every guard lets it pass. -/
structure Admits (settings : Settings) (command : Text) : Prop where
  enabled : settings.enabled = true
  notBlank : ∃ c ∈ command, c.isBlank = false
  noOperator : ∀ operator ∈ Composition.operators, ¬ operator <:+: command
  notWrapped : ¬ Text.ofString "rtk " <+: command.trim
  fits : ∃ pattern ∈ settings.patterns,
    command.trim = pattern ∨ pattern ++ Text.ofString " " <+: command.trim

lemma first?_eq_none_iff : first? settings command = none ↔ Admits settings command := by
  have hmem : ∀ guard : Guard, guard ∈ inOrder := fun guard => by cases guard <;> decide
  have hpass : first? settings command = none ↔ ∀ guard : Guard, ¬ guard.Stops settings command := by
    simp only [first?, List.find?_eq_none, decide_eq_true_eq]
    exact ⟨fun h guard => h guard (hmem guard), fun h guard _ => h guard⟩
  rw [hpass]
  constructor
  · intro h
    exact ⟨by simpa [Stops] using h disabled, by simpa [Stops] using h empty,
      by simpa [Stops] using h compound, h alreadyWrapped,
      by simpa only [Stops, not_forall, not_not, exists_prop] using h noMatch⟩
  · intro h guard hstops
    cases guard with
    | disabled => exact absurd (h.enabled.symm.trans hstops) Bool.true_eq_false.mp
    | empty =>
      obtain ⟨c, hc, hplain⟩ := h.notBlank
      exact absurd (hplain.symm.trans (hstops c hc)) Bool.false_eq_true.mp
    | alreadyWrapped => exact h.notWrapped hstops
    | compound =>
      obtain ⟨operator, hoperator, hthere⟩ := hstops
      exact h.noOperator operator hoperator hthere
    | noMatch =>
      obtain ⟨pattern, hpattern, hfit⟩ := h.fits
      exact hstops pattern hpattern hfit

end Guard

namespace Settings

/-- The tests of a decision are the guards in their order. -/
theorem decision_eq (settings : Settings) (command : Text) :
    settings.decision command = match Guard.first? settings command with
      | some guard => .unchanged guard
      | none => .rewritten (if settings.aliases.hasKey command.trim.head then .byAlias else .byPrefix)
          (Rewriting.rewrite settings.aliases command.trim) := by
  have hdisabled : Guard.disabled.Stops settings command ↔ settings.enabled = false := Iff.rfl
  simp only [decision, Guard.first?, Guard.inOrder, List.find?_cons, List.find?_nil, hdisabled,
    Guard.stops_empty_iff, Guard.stops_alreadyWrapped_iff, Guard.stops_compound_iff,
    Guard.stops_noMatch_iff]
  split_ifs <;> simp_all

variable {settings : Settings} {command rewritten : Text} {kind : RewriteKind} {guard : Guard}

/-- The alias is looked up by the first word of the command. -/
lemma hasKey_head_iff {aliases : Entries Text} (h : command.isBlank = false) :
    aliases.hasKey command.trim.head = true ↔
      ∃ word ∈ command.words.head?, word ∈ Entries.keys aliases := by
  simp [Entries.hasKey_iff, Text.head_trim, Text.head?_words, h]

/-- A command is rewritten exactly if the settings are enabled, it is not blank, it holds no operator
anywhere, it is not wrapped yet, and a pattern fits it. An alias of its first word says how, or else the
compressor goes in front. Any other command is left as it is, for the first guard that stops it. -/
theorem decision_by_guards (settings : Settings) (command : Text) :
    ((∃ kind rewritten, settings.decision command = .rewritten kind rewritten) ↔
      Guard.Admits settings command) ∧
    (∀ kind rewritten, settings.decision command = .rewritten kind rewritten →
      rewritten = Rewriting.rewrite settings.aliases command ∧
      (kind = .byAlias ↔ ∃ word ∈ command.words.head?, word ∈ Entries.keys settings.aliases)) ∧
    ∀ guard, settings.decision command = .unchanged guard ↔
      Guard.first? settings command = some guard := by
  have hdecision := decision_eq settings command
  rw [← Guard.first?_eq_none_iff]
  cases hfirst : Guard.first? settings command with
  | some stopping =>
    rw [hfirst] at hdecision
    simp [hdecision]
  | none =>
    rw [hfirst] at hdecision
    have hrewrite : Rewriting.rewrite settings.aliases command.trim =
        Rewriting.rewrite settings.aliases command := by
      rw [Rewriting.rewrite, Text.trim_trim, Rewriting.rewrite]
    have hblank : command.isBlank = false := by
      obtain ⟨c, hc, hplain⟩ := (Guard.first?_eq_none_iff.mp hfirst).notBlank
      exact List.all_eq_false.mpr ⟨c, hc, by simp [hplain]⟩
    have hkind : (if settings.aliases.hasKey command.trim.head then RewriteKind.byAlias else .byPrefix) =
        .byAlias ↔ ∃ word ∈ command.words.head?, word ∈ Entries.keys settings.aliases := by
      rw [← hasKey_head_iff hblank]
      split_ifs with hkey <;> simp [hkey]
    refine ⟨by simp [hdecision], fun kind rewritten hrewritten => ?_, by simp [hdecision]⟩
    rw [hdecision, hrewrite] at hrewritten
    obtain ⟨rfl, rfl⟩ := Decision.rewritten.inj hrewritten
    exact ⟨rfl, hkind⟩

/-- A command may fall foul of several guards, and the first of them counts. -/
example : Guard.first? {} (Text.ofString "rtk ls | wc") = some .alreadyWrapped := by decide

end Settings
end CommandWrap
