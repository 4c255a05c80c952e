import Mathlib
import CommandWrap.Proofs.Decision.Guards

/-! What a decision depends on in the settings: which patterns there are, in any order, and the aliases of
their first words. More patterns let more commands be rewritten, and change no command that already is. -/
namespace CommandWrap

variable {a b : Settings} {command : Text}

namespace Guard

lemma first?_congr (h : ∀ guard : Guard, guard.Stops a command ↔ guard.Stops b command) :
    first? a command = first? b command := by
  unfold first?
  apply List.find?_congr
  intro guard _
  exact decide_eq_decide.mpr (h guard)

/-- Of the settings, the guards ask for the patterns and whether they are enabled. -/
lemma stops_iff_of_mem_iff (henabled : a.enabled = b.enabled)
    (hpatterns : ∀ pattern, pattern ∈ a.patterns ↔ pattern ∈ b.patterns) (guard : Guard) :
    guard.Stops a command ↔ guard.Stops b command := by
  cases guard with
  | disabled => simp only [Stops, henabled]
  | empty => rfl
  | alreadyWrapped => rfl
  | compound => rfl
  | noMatch => simp only [Stops, hpatterns]

lemma Admits.of_subset (h : Admits a command) (henabled : a.enabled = b.enabled)
    (hpatterns : a.patterns ⊆ b.patterns) : Admits b command := by
  obtain ⟨pattern, hpattern, hfit⟩ := h.fits
  exact
    { enabled := henabled.symm.trans h.enabled
      notBlank := h.notBlank
      noOperator := h.noOperator
      notWrapped := h.notWrapped
      fits := ⟨pattern, hpatterns hpattern, hfit⟩ }

/-- An admitted command starts with the first word of a pattern. -/
lemma Admits.exists_head (h : Admits a command)
    (hpatterns : ∀ pattern ∈ a.patterns, pattern ≠ [] ∧ pattern.trim = pattern) :
    ∃ pattern ∈ a.patterns, pattern.head = command.trim.head := by
  obtain ⟨pattern, hpattern, hfit⟩ := h.fits
  obtain ⟨hne, htrim⟩ := hpatterns pattern hpattern
  exact ⟨pattern, hpattern,
    Pattern.head_of_fits (Pattern.not_isBlank_of_trim hne htrim) (Pattern.fits_iff.mpr hfit)⟩

end Guard

namespace Settings

/-- Commands that both settings admit are rewritten alike, if both have the same alias for the first
word. -/
lemma decision_eq_of_admits (ha : Guard.Admits a command) (hb : Guard.Admits b command)
    (halias : a.aliases.get? command.trim.head = b.aliases.get? command.trim.head) :
    a.decision command = b.decision command := by
  have hkey : a.aliases.hasKey command.trim.head = b.aliases.hasKey command.trim.head := by
    rw [Entries.hasKey, Entries.hasKey, halias]
  have hrewrite : Rewriting.rewrite a.aliases command.trim = Rewriting.rewrite b.aliases command.trim := by
    rw [Rewriting.rewrite_trim, Rewriting.rewrite_trim, halias]
  rw [decision_eq, decision_eq, Guard.first?_eq_none_iff.mpr ha, Guard.first?_eq_none_iff.mpr hb]
  simp only [hkey, hrewrite]

lemma admits_of_decision {rewritten : Text} {kind : RewriteKind}
    (h : a.decision command = .rewritten kind rewritten) : Guard.Admits a command := by
  rw [← Guard.first?_eq_none_iff]
  rw [decision_eq] at h
  cases hfirst : Guard.first? a command with
  | none => rfl
  | some guard => simp [hfirst] at h

/-- Settings that are both enabled or both not, and have the same aliases for the first words of their
patterns, decide alike on every command if they have the same patterns, in any order and however often. If
one of them has more patterns, it rewrites in the same way what the other rewrites. -/
theorem decision_of_sameHeads (henabled : a.enabled = b.enabled)
    (htidy : ∀ pattern ∈ a.patterns, pattern ≠ [] ∧ pattern.trim = pattern)
    (haliases : ∀ pattern ∈ a.patterns, a.aliases.get? pattern.head = b.aliases.get? pattern.head) :
    ((∀ pattern, pattern ∈ a.patterns ↔ pattern ∈ b.patterns) →
      ∀ command, a.decision command = b.decision command) ∧
    (a.patterns ⊆ b.patterns → ∀ command kind rewritten,
      a.decision command = .rewritten kind rewritten → b.decision command = .rewritten kind rewritten) := by
  have hsame : ∀ command, a.patterns ⊆ b.patterns → Guard.Admits a command →
      a.decision command = b.decision command := by
    intro command hsubset hadmits
    obtain ⟨pattern, hpattern, hhead⟩ := hadmits.exists_head htidy
    exact decision_eq_of_admits hadmits (hadmits.of_subset henabled hsubset)
      (hhead ▸ haliases pattern hpattern)
  refine ⟨fun hpatterns command => ?_, fun hsubset command kind rewritten h => ?_⟩
  · by_cases hadmits : Guard.Admits a command
    · exact hsame command (fun pattern => (hpatterns pattern).mp) hadmits
    · have hfirst : Guard.first? a command = Guard.first? b command :=
        Guard.first?_congr (Guard.stops_iff_of_mem_iff henabled hpatterns)
      obtain ⟨guard, hguard⟩ := Option.ne_none_iff_exists'.mp (mt Guard.first?_eq_none_iff.mp hadmits)
      rw [decision_eq, decision_eq, ← hfirst, hguard]
  · rw [← hsame command hsubset (admits_of_decision h), h]

def fewPatterns : Settings := { patterns := ["git log", "ls"], aliases := [("ls", "rtk list"), ("cat", "x")] }

/-- The patterns in another order and again, and an alias for a command that none of them fits. -/
def shuffledPatterns : Settings :=
  { patterns := ["ls", "git log", "ls"], aliases := [("rg", "y"), ("ls", "rtk list")] }

/-- One pattern more, so that the other alias counts. -/
def morePatterns : Settings := { shuffledPatterns with patterns := "rg" :: shuffledPatterns.patterns }

theorem decision_of_sameHeads_shuffled :
    (∀ command, fewPatterns.decision command = shuffledPatterns.decision command) ∧
      ∀ command kind rewritten, fewPatterns.decision command = .rewritten kind rewritten →
        morePatterns.decision command = .rewritten kind rewritten := by
  have henabled : fewPatterns.enabled = shuffledPatterns.enabled := rfl
  have hstillEnabled : fewPatterns.enabled = morePatterns.enabled := rfl
  have htidy : ∀ pattern ∈ fewPatterns.patterns, pattern ≠ [] ∧ pattern.trim = pattern := by decide
  have haliases : ∀ pattern ∈ fewPatterns.patterns,
      fewPatterns.aliases.get? pattern.head = shuffledPatterns.aliases.get? pattern.head := by decide
  have hpatterns : ∀ pattern, pattern ∈ fewPatterns.patterns ↔ pattern ∈ shuffledPatterns.patterns := by
    simp only [fewPatterns, shuffledPatterns, List.mem_cons, List.not_mem_nil, or_false]
    intro pattern
    tauto
  have hsubset : fewPatterns.patterns ⊆ morePatterns.patterns := by decide
  exact ⟨(decision_of_sameHeads henabled htidy haliases).1 hpatterns,
    (decision_of_sameHeads hstillEnabled htidy haliases).2 hsubset⟩

/-- The pattern that comes first has no part in the decision. -/
example : morePatterns.decision (Text.ofString "ls -a") =
    .rewritten .byAlias (Text.ofString "rtk list -a") := by decide

end Settings
end CommandWrap
