import Mathlib
import CommandWrap.Decision
import CommandWrap.Proofs.Settings

/-! What a command is rewritten to, and when. -/
namespace CommandWrap

namespace Settings

variable {settings : Settings} {command rewritten : Text} {kind : RewriteKind}

/-- What is known of a command that is rewritten: it has passed all guards. -/
structure IsRewritten (settings : Settings) (command : Text) (kind : RewriteKind) (rewritten : Text) :
    Prop where
  enabled : settings.enabled = true
  ne_nil : command.trim ≠ []
  simple : Composition.isSimple command.trim = true
  fits : Pattern.anyFits command.trim settings.patterns = true
  kind_eq : kind = if settings.aliases.hasKey command.trim.head then .byAlias else .byPrefix
  rewritten_eq : rewritten = Rewriting.rewrite settings.aliases command.trim

lemma decision_rewritten (h : settings.decision command = .rewritten kind rewritten) :
    settings.IsRewritten command kind rewritten := by
  simp only [decision] at h
  split_ifs at h with hdisabled hempty hwrapped hsimple hfits hkey
  all_goals
    obtain ⟨rfl, rfl⟩ := Decision.rewritten.inj h
    exact ⟨by simpa using hdisabled, hempty, by simpa using hsimple, by simpa using hfits, by simp [hkey],
      rfl⟩

end Settings

namespace Rewriting

lemma rewrite_trim (aliases : Entries Text) (command : Text) :
    rewrite aliases command.trim = match aliases.get? command.trim.head with
      | some replacement => replacement ++ command.trim.drop command.trim.head.length
      | none => compressor ++ " " ++ command.trim := by
  cases hreplacement : aliases.get? command.trim.head <;>
    simp only [rewrite, Text.trim_trim, hreplacement]

end Rewriting
end CommandWrap
