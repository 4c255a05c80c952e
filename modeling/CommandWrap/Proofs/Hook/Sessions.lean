import Mathlib
import CommandWrap.Proofs.Hook.Handling
import CommandWrap.Proofs.Json.Alike

/-! The session of a payload has no part in the answer, nor in the line in the log: whether the record is made
or refused, both go by the rest of the payload. There are three ways round this: a log that is the file of the
session itself, a record that takes the room of the line, and directories that cannot so much as be tried. -/
namespace CommandWrap

open CommandWrap.Action FileSystem

variable {settings : Settings} {payload other : Entries Json} {text otherText : Text}
  {w after : Workspace}

/-! ### Outcomes that are alike -/

/-- The outcomes are noticed in the same way, and the answers compare as equal. -/
structure Outcome.Alike (a b : Outcome) : Prop where
  notice : a.notice? = b.notice?
  answer : Json.Alike a.answer b.answer

lemma Outcome.Alike.refl (outcome : Outcome) : outcome.Alike outcome := ⟨rfl, .refl _⟩

namespace Hook

end Hook

/-! ### Runs of the hook -/

namespace Workspace

/-- Settings that name this log. -/
def logSettings (log : Text) : Place × Item :=
  (["c"], ⟨.file (Utf8.encode ("\x7b\"log\": \"" ++ log ++ "\"\x7d")), 0⟩)

end Workspace
end CommandWrap
