import Mathlib
import CommandWrap.Proofs.Rewriting
import CommandWrap.Proofs.Settings.Normal

/-! Deciding twice: when a rewritten command is left as it is because the compressor is in front. -/
namespace CommandWrap

namespace Rewriting

/-- The compressor and a space, which mark a command that is wrapped. -/
def mark : Text := compressor ++ Text.ofString " "

lemma isWrapped_iff {command : Text} : isWrapped command = true ↔ mark <+: command :=
  List.isPrefixOf_iff_prefix

lemma not_isBlank_of_mem_compressor : ∀ c ∈ compressor, c.isBlank = false := by decide

/-- The mark stands in front of a trimmed text that goes on behind a blank if it stands in front of the
text, or if the text is the compressor and the blank is a space. -/
lemma mark_prefix_append_iff {v rest : Text} (hv : v ≠ [])
    (hrest : ∀ c ∈ rest.head?, c.isBlank = true) :
    mark <+: v ++ rest ↔ mark <+: v ∨ v = compressor ∧ rest.head? = some (CodePoint.ofChar ' ') := by
  constructor
  · rintro ⟨more, hmore⟩
    rw [mark, List.append_assoc] at hmore
    rcases List.append_eq_append_iff.mp hmore with ⟨behind, rfl, hspace⟩ | ⟨front, hsplit, rfl⟩
    · cases behind with
      | nil =>
        refine .inr ⟨List.append_nil _, ?_⟩
        rw [List.nil_append] at hspace
        rw [← hspace]
        rfl
      | cons c behind =>
        obtain ⟨rfl, -⟩ := List.cons.inj hspace
        exact .inl ⟨behind, List.append_assoc _ _ _⟩
    · cases front with
      | nil =>
        rw [List.append_nil] at hsplit
        exact .inr ⟨hsplit.symm, rfl⟩
      | cons c front =>
        -- A part of the compressor would stand behind the text, and start with a blank.
        have hc : c ∈ compressor := by simp [hsplit]
        rw [List.cons_append] at hrest
        have hblank := hrest c rfl
        rw [not_isBlank_of_mem_compressor c hc] at hblank
        simp at hblank
  · rintro (h | ⟨rfl, hspace⟩)
    · exact h.trans (List.prefix_append _ _)
    · cases rest with
      | nil => simp at hspace
      | cons c rest =>
        obtain rfl : c = CodePoint.ofChar ' ' := by simpa using hspace
        exact ⟨rest, by simp [mark, Text.ofString]⟩

/-- A text without blanks at its ends stays trimmed when it takes the place of the first word. -/
lemma trim_append_drop_head {v command : Text} (hv : v ≠ []) (htrim : v.trim = v) :
    (v ++ command.trim.drop command.trim.head.length).trim =
      v ++ command.trim.drop command.trim.head.length := by
  refine Text.trim_of_ends (fun c hc => ?_) fun c hc => ?_
  · rw [List.head?_append_of_ne_nil _ hv, ← htrim] at hc
    exact Text.head?_trim hc
  · rw [List.getLast?_append] at hc
    cases hlast : (command.trim.drop command.trim.head.length).getLast? with
    | none =>
      rw [hlast, Option.none_or, ← htrim] at hc
      exact Text.not_isBlank_getLast?_trim hc
    | some d =>
      obtain rfl : d = c := by simpa [hlast] using hc
      rw [List.getLast?_drop] at hlast
      split_ifs at hlast
      exact Text.not_isBlank_getLast?_trim hlast

lemma trim_mark_append {command : Text} (h : command.trim ≠ []) :
    (mark ++ command.trim).trim = mark ++ command.trim := by
  refine Text.trim_of_ends (fun c hc => ?_) fun c hc => ?_
  · obtain rfl : CodePoint.ofChar 'r' = c := Option.some.inj hc
    decide
  · rw [List.getLast?_append_of_ne_nil _ h] at hc
    exact Text.not_isBlank_getLast?_trim hc

end Rewriting

namespace Settings

open Rewriting

variable {settings : Settings} {command rewritten : Text} {kind : RewriteKind}

/-- How a command is rewritten: the compressor goes in front, or an alias in the place of the first
word. -/
lemma decision_rewritten_cases (h : settings.decision command = .rewritten kind rewritten) :
    kind = .byPrefix ∧ rewritten = mark ++ command.trim ∨
    kind = .byAlias ∧ ∃ v, settings.aliases.get? command.trim.head = some v ∧
      rewritten = v ++ command.trim.drop command.trim.head.length := by
  have hkind := (decision_rewritten h).kind_eq
  have hrewritten := (decision_rewritten h).rewritten_eq
  rw [rewrite_trim] at hrewritten
  cases hget : settings.aliases.get? command.trim.head with
  | none =>
    rw [hget] at hrewritten
    exact .inl ⟨by simpa [Entries.hasKey, hget] using hkind, hrewritten⟩
  | some v =>
    rw [hget] at hrewritten
    exact .inr ⟨by simpa [Entries.hasKey, hget] using hkind, v, rfl, hrewritten⟩

/-- Whether a command is left alone as wrapped is decided by how the trimmed command begins. -/
lemma decision_eq_alreadyWrapped_iff (henabled : settings.enabled = true) (command : Text) :
    settings.decision command = .unchanged .alreadyWrapped ↔ mark <+: command.trim := by
  rw [← isWrapped_iff, decision]
  simp only [henabled, Bool.not_true, Bool.false_eq_true, if_false]
  by_cases hempty : command.trim = []
  · rw [if_pos hempty, hempty]
    simp [isWrapped, compressor, Text.ofString]
  · rw [if_neg hempty]
    by_cases hwrapped : isWrapped command.trim = true
    · simp [hwrapped]
    · rw [if_neg hwrapped]
      split_ifs <;> simp [hwrapped]

/-- A rewritten command is left alone as wrapped, the second time, exactly if the compressor went in
front, or if what the alias put there begins with the compressor and a space; the space may be the one
behind the first word. With aliases that all begin so, no command is rewritten twice. -/
theorem decision_rewritten_again {limit : Json.Limit} {homes : Homes} {text : Text}
    (hparse : parse limit homes text = .ok settings)
    (h : settings.decision command = .rewritten kind rewritten) :
    (settings.decision rewritten = .unchanged .alreadyWrapped ↔
      kind = .byPrefix ∨ kind = .byAlias ∧ ∃ v, settings.aliases.get? command.trim.head = some v ∧
        (mark <+: v ∨ v = compressor ∧
          (command.trim.drop command.trim.head.length).head? = some (CodePoint.ofChar ' '))) ∧
    ((∀ entry ∈ settings.aliases, mark <+: entry.2) →
      ∀ again more, settings.decision rewritten ≠ .rewritten again more) := by
  have henabled := (decision_rewritten h).enabled
  have hiff : settings.decision rewritten = .unchanged .alreadyWrapped ↔
      kind = .byPrefix ∨ kind = .byAlias ∧ ∃ v, settings.aliases.get? command.trim.head = some v ∧
        (mark <+: v ∨ v = compressor ∧
          (command.trim.drop command.trim.head.length).head? = some (CodePoint.ofChar ' ')) := by
    rw [decision_eq_alreadyWrapped_iff henabled]
    rcases decision_rewritten_cases h with ⟨rfl, rfl⟩ | ⟨rfl, v, hget, rfl⟩
    · rw [trim_mark_append (decision_rewritten h).ne_nil]
      exact iff_of_true (List.prefix_append _ _) (.inl rfl)
    · obtain ⟨hv, htrim⟩ := hasTrimmedAliases_parse hparse _ (Entries.mem_of_get? hget)
      have hblank := (Text.head_append_drop fun _ => Text.head?_trim (t := command)).2
      rw [trim_append_drop_head hv htrim, mark_prefix_append_iff hv hblank]
      simp [hget]
  refine ⟨hiff, fun haliases again more hagain => ?_⟩
  have hwrapped : settings.decision rewritten = .unchanged .alreadyWrapped := by
    rw [hiff]
    rcases decision_rewritten_cases h with ⟨hkind, -⟩ | ⟨hkind, v, hget, -⟩
    · exact .inl hkind
    · exact .inr ⟨hkind, v, hget, .inl (haliases _ (Entries.mem_of_get? hget))⟩
  rw [hwrapped] at hagain
  cases hagain

/-- Settings with an alias that is the compressor alone. -/
def bareAlias : Settings := { patterns := ["cat", "cat\ta"], aliases := [("cat", "rtk")] }

def bareAliasText : Text :=
  "\x7b\"patterns\": [\"cat\", \"cat\\ta\"], \"aliases\": \x7b\"cat\": \"rtk\"\x7d\x7d"

set_option maxRecDepth 8000 in
/-- Behind such an alias a space makes a wrapped command, and a tab does not. -/
theorem decision_rewritten_again_bareAlias :
    parse {} { own := [] } bareAliasText = .ok bareAlias ∧
      bareAlias.decision "cat a" = .rewritten .byAlias "rtk a" ∧
      bareAlias.decision "rtk a" = .unchanged .alreadyWrapped ∧
      bareAlias.decision "cat\ta" = .rewritten .byAlias "rtk\ta" ∧
      bareAlias.decision "rtk\ta" ≠ .unchanged .alreadyWrapped := by
  have hparse : parse {} { own := [] } bareAliasText = .ok bareAlias := by cbv
  have hspace : bareAlias.decision "cat a" = .rewritten .byAlias "rtk a" := by decide
  have htab : bareAlias.decision "cat\ta" = .rewritten .byAlias "rtk\ta" := by decide
  have hget : ∀ command ∈ [Text.ofString "cat a", Text.ofString "cat\ta"],
      bareAlias.aliases.get? command.trim.head = some compressor := by decide
  refine ⟨hparse, hspace, (decision_rewritten_again hparse hspace).1.mpr ?_, htab, fun hagain => ?_⟩
  · exact .inr ⟨rfl, compressor, hget _ (by simp), .inr ⟨rfl, by decide⟩⟩
  · rcases (decision_rewritten_again hparse htab).1.mp hagain with hkind | ⟨-, v, hv, hcases⟩
    · cases hkind
    · rw [hget _ (by simp)] at hv
      obtain rfl : compressor = v := Option.some.inj hv
      have hnone : ¬ (mark <+: compressor ∨ compressor = compressor ∧
          ((Text.ofString "cat\ta").trim.drop (Text.ofString "cat\ta").trim.head.length).head? =
            some (CodePoint.ofChar ' ')) := by decide
      exact hnone hcases

end Settings
end CommandWrap
