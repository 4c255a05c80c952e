import CommandWrap.Decision
import CommandWrap.Json.Error
import CommandWrap.Tally

/-!
The answer to a tool call. A call of the shell whose command is rewritten gets a new input; all other
calls pass. The answer depends on the settings and the call alone; what is to be logged and recorded
comes with it.
-/
namespace CommandWrap

/-- What a log says about a decision. -/
structure Notice where
  event : Text
  name : Text
  reason : Option Text := none
  pattern : Option Text := none
  command : Option Text := none
  rewritten : Option Text := none

inductive Outcome
  /-- The call is not one of the shell. -/
  | passed
  | unchanged (notice : Notice)
  /-- The trimmed command is recorded. -/
  | rewritten (notice : Notice) (command : Text) (answer : Json)

namespace Outcome

def answer : Outcome → Json
  | rewritten _ _ answer => answer
  | _ => .object []

def recorded? : Outcome → Option Text
  | rewritten _ command _ => some command
  | _ => none

def notice? : Outcome → Option Notice
  | passed => none
  | unchanged notice => some notice
  | rewritten notice _ _ => some notice

/-- The tally once the outcome is counted. -/
def count (outcome : Outcome) (tally : Tally) : Tally :=
  match outcome.recorded? with
  | some command => tally.record command
  | none => tally

end Outcome

namespace Hook

/-- The name under which the shell is called. -/
def shellName : Text := "Bash"

/-- The answer that puts `command` in the place of the command in `input`. -/
def rewriteAnswer (settings : Settings) (input : Entries Json) (command : Text) : Json :=
  .object [("hookSpecificOutput", .object
    [("hookEventName", .string "PreToolUse"),
      ("permissionDecision", .string (if settings.autoApprove then "allow" else "ask")),
      ("permissionDecisionReason", .string ("rtk rewrite: " ++ command)),
      ("updatedInput", .object (input.insert "command" (.string command)))])]

/-- What a command goes by where its arguments are not to be shown. -/
def nameOf (pattern : Option Text) (trimmed : Text) : Text :=
  if pattern.getD [] ≠ [] then pattern.getD []
  else if trimmed.head ≠ [] then trimmed.head
  else "empty command"

/-- The outcome for a command of the shell. -/
def handleCommand (settings : Settings) (input : Entries Json) (command : Text) : Outcome :=
  let trimmed := command.trim
  let pattern := Pattern.firstFit? trimmed settings.patterns
  let decision := settings.decision command
  let notice : Notice :=
    { event := decision.action, name := nameOf pattern trimmed, reason := some decision.reason
      pattern := pattern, command := some trimmed, rewritten := decision.command? }
  match decision.command? with
  | none => .unchanged notice
  | some command => .rewritten notice trimmed (rewriteAnswer settings input command)

/-- Whether a call is one of the shell. A name has to be a scalar. -/
def isShell (name : Option Json) : Except Json.Container Bool :=
  match name with
  | some (.string t) => .ok (t = shellName)
  | some (.array _) => .error .array
  | some (.object _) => .error .object
  | _ => .ok false

def handle (settings : Settings) (payload : Entries Json) : Except Json.Container Outcome :=
  (isShell (payload.get? "tool_name")).map fun shell =>
    match shell, payload.get? "tool_input" with
    | true, some (.object input) =>
      match Entries.get? "command" input with
      | some (.string command) => handleCommand settings input command
      | _ => .passed
    | _, _ => .passed

end Hook
end CommandWrap
