import CommandWrap.Text.Basic

/-! Syntax trees of commands, and what runs inside one. -/
namespace CommandWrap.Shell

inductive Tree
  /-- A value that is not built from parts. -/
  | leaf
  /-- The `type` is that of a redirection and the `target` is where it leads. -/
  | node (kind type : Option Text) (parts : List Tree) (target : Option Tree)

namespace Tree

def kind? : Tree → Option Text
  | leaf => none
  | node kind _ _ _ => kind

/-- A node of a kind with its parts. -/
def of (kind : Text) (parts : List Tree) : Tree := node (some kind) none parts none

def redirect (type : Text) (target : Tree) : Tree := node (some "redirect") (some type) [] (some target)

/-- The kinds of nodes that run a command inside another. -/
def substitutionKinds : List Text := ["commandsubstitution", "processsubstitution"]

/-- The types of redirections that bring their input with them. -/
def documentTypes : List Text := ["<<", "<<-", "<<<"]

def isSubstitution : Option Text → Bool
  | some kind => substitutionKinds.contains kind
  | none => false

def isDocument : Option Text → Bool
  | some type => documentTypes.contains type
  | none => false

mutual

/-- A substitution or a here-document stands in the tree. The target of a redirection is looked into
if it has a kind. -/
def hasNested : Tree → Bool
  | leaf => false
  | node kind type parts target =>
    isSubstitution kind ||
      (kind = some "redirect" && (isDocument type || targetHasNested target)) ||
      anyHasNested parts

def targetHasNested : Option Tree → Bool
  | none => false
  | some t => t.kind?.isSome && hasNested t

def anyHasNested : List Tree → Bool
  | [] => false
  | t :: rest => hasNested t || anyHasNested rest

end

end Tree
end CommandWrap.Shell
