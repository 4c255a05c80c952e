import CommandWrap.Shell.Script

/-! Whether a text is one simple command that runs no other and brings no input with it. -/
namespace CommandWrap.Shell

inductive Shape
  | simple
  | compound
  | unparseable
deriving DecidableEq

namespace Shape

def name : Shape → Text
  | simple => "simple"
  | compound => "compound"
  | unparseable => "unparseable"

def ofTrees : List Tree → Shape
  | [] => unparseable
  | [t] => if t.kind? = some "command" ∧ !t.hasNested then simple else compound
  | _ => compound

/-- The shape of a text, in whose words commands nest up to `depth` levels. -/
def ofText (depth : Nat) (t : Text) : Shape :=
  match Script.parse? depth t with
  | some trees => ofTrees trees
  | none => unparseable

end Shape
end CommandWrap.Shell
