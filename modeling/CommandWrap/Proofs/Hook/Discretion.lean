import Mathlib
import CommandWrap.Proofs.Decision.Guards
import CommandWrap.Proofs.Hook.Handling

/-! What a log shows of a command when it is not a full one: why the command was left or rewritten, the
pattern that fits it, and without a pattern its first word. -/
namespace CommandWrap

open CommandWrap.Action FileSystem

variable {settings : Settings} {payload input other otherInput : Entries Json} {a b : Text}
  {w : Workspace} {p : Path}

/-! ### Notices -/

namespace Decision

end Decision

namespace Hook

/-- What is noticed of a command. -/
def noticeOf (settings : Settings) (command : Text) : Notice :=
  { event := (settings.decision command).action
    name := nameOf (Pattern.firstFit? command.trim settings.patterns) command.trim
    reason := some (settings.decision command).reason
    pattern := Pattern.firstFit? command.trim settings.patterns
    command := some command.trim
    rewritten := (settings.decision command).command? }

end Hook

/-! ### Lines in the log -/

namespace Workspace

end Workspace
end CommandWrap
