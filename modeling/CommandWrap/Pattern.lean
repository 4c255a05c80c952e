import CommandWrap.Text.Basic

/-! Patterns are beginnings of commands that end at a word boundary. -/
namespace CommandWrap.Pattern

/-- The command is the pattern, or goes on behind it with a space. -/
def fits (command pattern : Text) : Bool :=
  command = pattern || (pattern ++ " ").isPrefixOf command

/-- The first pattern that fits. -/
def firstFit? (command : Text) (patterns : List Text) : Option Text :=
  patterns.find? (fits command)

def anyFits (command : Text) (patterns : List Text) : Bool :=
  (firstFit? command patterns).isSome

end CommandWrap.Pattern
