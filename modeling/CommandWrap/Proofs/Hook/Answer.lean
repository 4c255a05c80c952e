import Mathlib
import CommandWrap.Proofs.CommandLine
import CommandWrap.Proofs.Json.Reading
import CommandWrap.Proofs.Json.RoundTrip
import CommandWrap.Proofs.Json.VisibleText
import CommandWrap.Proofs.Rewriting
import CommandWrap.Proofs.Workspace.Logging

/-! The answer to a tool call: there always is one, on one line, and it changes the command alone. -/
namespace CommandWrap

open CommandWrap.Action Workspace

/-! ### What is answered -/

/-- The settings that a run goes by. -/
def inForce : Action Settings := do
  Workspace.loadSettings (← Workspace.settingsPath)

/-- The settings in force, with their log open. -/
def configured : Action Settings := do
  let settings ← inForce
  Workspace.configureLog settings
  return settings

namespace Workspace

lemma outcome_runHook {text : Text} {payload : Entries Json} {w : Workspace}
    (hparse : Json.parse w.limits.payload text = .ok (.object payload)) :
    (runHook text).outcome w = match configured.outcome w with
      | (.ok settings, opened) => (handle settings (sessionOf? payload) payload).outcome opened
      | (.error fault, left) => (.error fault, left) := by
  have hrun : (runHook text).outcome w = (do
      let settings ← configured
      handle settings (sessionOf? payload) payload).outcome w := by
    unfold runHook configured inForce
    rw [Json.isBlank_of_parse_object hparse]
    simp only [Bool.false_eq_true, if_false, bind_assoc, pure_bind, outcome_bind, outcome_get, hparse]
  rw [hrun, outcome_bind]
  rcases configured.outcome w with ⟨result, left⟩
  cases result <;> rfl

/-- A text that is no object changes nothing and gets no answer but the empty one. -/
lemma runHook_of_not_object {text : Text} {w : Workspace}
    (h : ∀ payload, Json.parse w.limits.payload text ≠ .ok (.object payload)) :
    ((runHook text).outcome w).2 = w ∧
      ∀ response, ((runHook text).outcome w).1 = .ok response → response = .object [] := by
  have hempty : ∀ response, (Except.ok (.object []) : Except Fault Json) = .ok response →
      response = .object [] := fun response h => (Except.ok.inj h).symm
  rw [runHook]
  split_ifs
  · exact ⟨rfl, hempty⟩
  · rw [outcome_bind, outcome_get]
    dsimp only
    split
    · exact ⟨rfl, hempty⟩
    · exact ⟨rfl, fun response h => by cases h⟩
    · rename_i payload hparse
      exact absurd hparse (h payload)
    · exact ⟨rfl, hempty⟩

end Workspace

lemma answer_handleCommand (settings : Settings) (input : Entries Json) (command : Text) :
    (Hook.handleCommand settings input command).answer = match settings.decision command with
      | .unchanged _ => .object []
      | .rewritten _ rewritten => Hook.rewriteAnswer settings input rewritten := by
  rw [Hook.handleCommand]
  cases settings.decision command <;> rfl

def sampleLine : Text := "\x7b\"hookSpecificOutput\": \x7b\"hookEventName\": \"PreToolUse\", " ++
  "\"permissionDecision\": \"ask\", \"permissionDecisionReason\": \"rtk rewrite: rtk ls\", " ++
  "\"updatedInput\": \x7b\"timeout\": 5, \"command\": \"rtk ls\", \"quiet\": true\x7d\x7d\x7d"

end CommandWrap
