import CommandWrap.Decision
import CommandWrap.Shell.Shape

/-! What every guard says about a command, line by line, and the decision. -/
namespace CommandWrap.Explanation

def yesNo (b : Bool) : Text := if b then "yes" else "no"

def operatorsText (operators : List Text) : Text :=
  if operators = [] then "none" else Text.join " " operators

/-- An empty pattern is not worth showing. -/
def patternText : Option Text → Text
  | none => "none"
  | some pattern => if pattern = [] then "none" else pattern.quoted

def aliasText (aliases : Entries Text) (head : Text) : Text :=
  match aliases.get? head with
  | some replacement => head.quoted ++ " -> " ++ replacement.quoted
  | none => "none"

def decisionText : Decision → Text
  | .unchanged guard => "unchanged (" ++ guard.reason ++ ")"
  | .rewritten kind command => "rewritten (" ++ kind.reason ++ ") -> " ++ command.quoted

/-- Stands behind a refusal that a look at the grammar would not have made. -/
def note : Text :=
  "Note: a shell parser sees one simple command here; the operator " ++
    "is likely quoted, but the lexical check refuses it anyway."

/-- The lines on the shape of a trimmed command, if it is not empty. Its words are looked into down to
`depth` levels. -/
def shapeLines (depth : Nat) (decision : Decision) (trimmed : Text) : List Text :=
  if trimmed = [] then []
  else
    let shape := Shell.Shape.ofText depth trimmed
    let line : Text := "Shell parser:    " ++ shape.name
    if decision = .unchanged .compound ∧ shape = .simple then [line, note] else [line]

def lines (depth : Nat) (settings : Settings) (command : Text) : List Text :=
  let trimmed := command.trim
  let decision := settings.decision command
  ["Command:         " ++ trimmed.quoted,
    "Enabled:         " ++ yesNo settings.enabled,
    "Already wrapped: " ++ yesNo (Rewriting.isWrapped trimmed),
    "Operators:       " ++ operatorsText (Composition.operatorsIn trimmed),
    "Pattern:         " ++ patternText (Pattern.firstFit? trimmed settings.patterns),
    "Alias:           " ++ aliasText settings.aliases trimmed.head,
    "Decision:        " ++ decisionText decision] ++ shapeLines depth decision trimmed

def render (depth : Nat) (settings : Settings) (command : Text) : Text :=
  Text.lines (lines depth settings command)

end CommandWrap.Explanation
