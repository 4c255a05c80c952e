import Mathlib
import CommandWrap.Settings.Parser
import CommandWrap.Proofs.Except
import CommandWrap.Proofs.Text.Words

/-! Settings that were read are in normal form: what an alias stands for is a trimmed text that is not
blank. -/
namespace CommandWrap.Settings

/-- What an alias puts in front of a command has a word in it, and no blank at its ends. -/
def HasTrimmedAliases (settings : Settings) : Prop :=
  ∀ entry ∈ settings.aliases, entry.2 ≠ [] ∧ entry.2.trim = entry.2

lemma hasTrimmedAliases_default : ({} : Settings).HasTrimmedAliases := by
  have h : ∀ entry ∈ defaultAliases, entry.2 ≠ [] ∧ entry.2.trim = entry.2 := by decide
  exact h

/-- An alias that is kept is for a single word, and by a text that is not blank. -/
lemma aliasOf?_eq_some {member : Text × Json} {entry : Text × Text} (h : aliasOf? member = some entry) :
    entry.1 = member.1 ∧ entry.1.IsWord ∧
      ∃ t : Text, member.2 = .string t ∧ ¬ t.isBlank = true ∧ entry.2 = t.trim := by
  obtain ⟨key, value⟩ := member
  cases value with
  | string t =>
    simp only [aliasOf?, Option.ite_none_left_eq_some, not_or, Option.some.injEq] at h
    obtain ⟨⟨hblank, hne, hplain⟩, rfl⟩ := h
    rw [Bool.not_eq_true, List.any_eq_false] at hplain
    exact ⟨rfl, ⟨hne, fun c hc => (Bool.not_eq_true _).mp (hplain c hc)⟩, t, rfl, hblank, rfl⟩
  | _ => simp [aliasOf?] at h

lemma trimmed_of_aliasOf? {member : Text × Json} {entry : Text × Text}
    (h : aliasOf? member = some entry) : entry.2 ≠ [] ∧ entry.2.trim = entry.2 := by
  obtain ⟨-, -, t, -, hblank, htrim⟩ := aliasOf?_eq_some h
  rw [htrim]
  exact ⟨mt Text.trim_eq_nil_iff.mp hblank, Text.trim_trim t⟩

lemma trimmed_aliasesField (members : Entries Json) :
    ∀ entry ∈ aliasesField members, entry.2 ≠ [] ∧ entry.2.trim = entry.2 := by
  rw [aliasesField]
  split
  · intro entry hentry
    obtain ⟨member, -, halias⟩ := List.mem_filterMap.mp hentry
    exact trimmed_of_aliasOf? halias
  · exact hasTrimmedAliases_default

lemma members_of_parse {limit : Json.Limit} {homes : Homes} {text : Text} {settings : Settings}
    (h : parse limit homes text = .ok settings) :
    ∃ members : Entries Json, Json.parse limit text = .ok (.object members) ∧
      ofMembers homes members = .ok settings := by
  rw [parse] at h
  cases hparse : Json.parse limit text with
  | error e => simp [hparse] at h
  | ok v =>
    cases v with
    | object members => exact ⟨members, rfl, by simpa only [hparse] using h⟩
    | _ => simp [hparse] at h

theorem hasTrimmedAliases_parse {limit : Json.Limit} {homes : Homes} {text : Text} {settings : Settings}
    (h : parse limit homes text = .ok settings) : settings.HasTrimmedAliases := by
  obtain ⟨members, -, hmembers⟩ := members_of_parse h
  obtain ⟨log, -, rfl⟩ := map_eq_ok hmembers
  exact trimmed_aliasesField members

end CommandWrap.Settings
