import CommandWrap.Json.Basic
import CommandWrap.Text.Blank

/-! Rewriting of a command so that it runs through the compressor. -/
namespace CommandWrap.Rewriting

/-- The program that every rewritten command starts, unless an alias names another one. -/
def compressor : Text := "rtk"

def isWrapped (command : Text) : Bool := (compressor ++ " ").isPrefixOf command

/-- The alias of the first word replaces that word; without one, the compressor goes in front. What
follows the first word stays as it is. -/
def rewrite (aliases : Entries Text) (command : Text) : Text :=
  let trimmed := command.trim
  match aliases.get? trimmed.head with
  | some replacement => replacement ++ trimmed.drop trimmed.head.length
  | none => compressor ++ " " ++ trimmed

end CommandWrap.Rewriting
