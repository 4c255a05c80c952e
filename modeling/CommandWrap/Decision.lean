import CommandWrap.Composition
import CommandWrap.Pattern
import CommandWrap.Rewriting
import CommandWrap.Settings.Basic
import CommandWrap.Text.Quoted

/-!
Whether a command is rewritten. Guards are tried in order, and the first that fails leaves the command
as it is.
-/
namespace CommandWrap

/-- Why a command stays as it is, in the order of the guards. -/
inductive Guard
  | disabled
  | empty
  | alreadyWrapped
  | compound
  | noMatch
deriving DecidableEq

/-- How a command is rewritten. -/
inductive RewriteKind
  | byAlias
  | byPrefix
deriving DecidableEq

inductive Decision
  | unchanged (guard : Guard)
  | rewritten (kind : RewriteKind) (command : Text)
deriving DecidableEq

def Guard.reason : Guard → Text
  | .disabled => "disabled"
  | .empty => "empty command"
  | .alreadyWrapped => "already wrapped"
  | .compound => "compound command"
  | .noMatch => "no matching pattern"

def RewriteKind.reason : RewriteKind → Text
  | .byAlias => "alias"
  | .byPrefix => "prefix"

namespace Decision

def reason : Decision → Text
  | unchanged guard => guard.reason
  | rewritten kind _ => kind.reason

def command? : Decision → Option Text
  | unchanged _ => none
  | rewritten _ command => some command

def action : Decision → Text
  | unchanged _ => "unchanged"
  | rewritten _ _ => "rewritten"

def describe (d : Decision) : Text :=
  "Decision('" ++ d.action ++ "', " ++ (d.command?.getD d.reason).quoted ++ ")"

end Decision

/-- The decision on a command, which is trimmed first. -/
def Settings.decision (settings : Settings) (command : Text) : Decision :=
  let trimmed := command.trim
  if !settings.enabled then .unchanged .disabled
  else if trimmed = [] then .unchanged .empty
  else if Rewriting.isWrapped trimmed then .unchanged .alreadyWrapped
  else if !Composition.isSimple trimmed then .unchanged .compound
  else if !Pattern.anyFits trimmed settings.patterns then .unchanged .noMatch
  else
    let kind := if settings.aliases.hasKey trimmed.head then RewriteKind.byAlias else .byPrefix
    .rewritten kind (Rewriting.rewrite settings.aliases trimmed)

end CommandWrap
