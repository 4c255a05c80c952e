import Mathlib
import CommandWrap.Proofs.Hook.Writes
import CommandWrap.Proofs.Text.Pieces

/-! Blanks around a command. All that the hook does with a command it does with the trimmed one, so the
answer, the tally and the log are those of the command without the blanks. -/
namespace CommandWrap

open CommandWrap.Action

variable {settings : Settings} {payload input : Entries Json} {command front behind a b : Text}

lemma Settings.decision_of_trim_eq (settings : Settings) (h : a.trim = b.trim) :
    settings.decision a = settings.decision b := by
  simp only [decision, h]

namespace Hook

/-- The payload with another command in its input. -/
def withCommand (payload input : Entries Json) (command : Text) : Entries Json :=
  payload.insert "tool_input" (.object (input.insert "command" (.string command)))

/-- A command that is the same once trimmed has the same outcome, also in an input that holds the other
one in its place. -/
lemma handleCommand_of_trim_eq (settings : Settings) (input : Entries Json) (h : a.trim = b.trim) :
    handleCommand settings (input.insert "command" (.string a)) a = handleCommand settings input b := by
  have hanswer : ∀ rewritten,
      rewriteAnswer settings (input.insert "command" (.string a)) rewritten =
        rewriteAnswer settings input rewritten := fun rewritten => by
    rw [rewriteAnswer, Entries.insert_insert, rewriteAnswer]
  unfold handleCommand
  simp only [h, settings.decision_of_trim_eq h, hanswer]

lemma handle_withCommand (hinput : payload.get? "tool_input" = some (.object input))
    (hcommand : input.get? "command" = some (.string b)) (h : a.trim = b.trim) (settings : Settings) :
    handle settings (withCommand payload input a) = handle settings payload := by
  have hname : (withCommand payload input a).get? "tool_name" = payload.get? "tool_name" := by
    rw [withCommand, Entries.get?_insert]
    exact if_neg (by decide)
  have hother : (withCommand payload input a).get? "tool_input" =
      some (.object (input.insert "command" (.string a))) := by
    rw [withCommand, Entries.get?_insert, if_pos rfl]
  have hread : Entries.get? "command" (input.insert "command" (.string a)) = some (.string a) := by
    rw [Entries.get?_insert, if_pos rfl]
  rw [handle_eq, handle_eq, hname, hother, hinput, handleInput_object hread, handleInput_object hcommand,
    handleCommand_of_trim_eq settings input h]

end Hook

namespace Workspace

/-- Blanks around the command of a payload change nothing: the answer is the same, with the whole input in
it, and so are the tally afterwards, the line in the log, full or not, and the record in the session. -/
theorem counted_surrounded (hinput : payload.get? "tool_input" = some (.object input))
    (hcommand : input.get? "command" = some (.string command)) (hfront : front.isBlank = true)
    (hbehind : behind.isBlank = true) (settings : Settings) :
    (∀ tally w, counted settings (Hook.withCommand payload input (front ++ command ++ behind)) tally w =
      counted settings payload tally w) ∧
    ∀ session w,
      (handle settings session (Hook.withCommand payload input (front ++ command ++ behind))).outcome w =
        (handle settings session payload).outcome w := by
  have hsame : Hook.handle settings (Hook.withCommand payload input (front ++ command ++ behind)) =
      Hook.handle settings payload :=
    Hook.handle_withCommand hinput hcommand (Text.trim_surrounded hfront hbehind command) settings
  refine ⟨fun tally w => ?_, fun session w => ?_⟩
  · simp only [counted, outcome_handle_none, hsame]
  · rw [handle, handle, hsame]

/-! ### A command between blanks -/

def timedInput : Entries Json := [("timeout", .int 5), ("command", .string "ls -a")]

def timedCall : Entries Json := [("tool_name", .string "Bash"), ("tool_input", .object timedInput)]

/-- A space of another kind and a tab in front, and a line feed behind. -/
def surroundedCall : Entries Json :=
  [("tool_name", .string "Bash"),
    ("tool_input", .object [("timeout", .int 5), ("command", .string "\u00a0\tls -a\n")])]

theorem counted_surrounded_timed :
    (∀ tally w, counted fullLog surroundedCall tally w = counted fullLog timedCall tally w) ∧
      ∀ session w, (handle fullLog session surroundedCall).outcome w =
        (handle fullLog session timedCall).outcome w := by
  have hinput : timedCall.get? "tool_input" = some (.object timedInput) := rfl
  have hcommand : timedInput.get? "command" = some (.string (Text.ofString "ls -a")) := rfl
  have hfront : Text.isBlank (Text.ofString "\u00a0\t") = true := by decide
  have hbehind : Text.isBlank (Text.ofString "\n") = true := by decide
  exact counted_surrounded hinput hcommand hfront hbehind fullLog

end Workspace
end CommandWrap
