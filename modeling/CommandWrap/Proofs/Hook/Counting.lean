import Mathlib
import CommandWrap.Proofs.Hook.Answered
import CommandWrap.Proofs.Hook.Discretion

/-! Payloads that are handled one after another, with one tally for all of them: it counts the commands that
are rewritten, and nothing else. -/
namespace CommandWrap

open CommandWrap.Action

variable {settings : Settings} {payload : Entries Json} {payloads : List (Entries Json)}
  {outcome : Outcome} {w : Workspace}

namespace Hook

end Hook

/-! ### Payloads one after another -/

namespace Workspace

end Workspace
end CommandWrap
