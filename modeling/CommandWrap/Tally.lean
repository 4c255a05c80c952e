import CommandWrap.Json.Basic
import CommandWrap.Text.Blank

/-! Tallies count rewritten commands under their first two words. -/
namespace CommandWrap

structure Tally where
  total : Nat := 0
  /-- In the order in which the keys were first seen. -/
  counts : Entries Nat := []
deriving DecidableEq

namespace Tally

/-- The first two words; empty for a blank command. -/
def key (command : Text) : Text := Text.join " " (command.words.take 2)

/-- A blank command is not counted. -/
def record (tally : Tally) (command : Text) : Tally :=
  let k := key command
  if k = [] then tally
  else ⟨tally.total + 1, tally.counts.insert k ((tally.counts.get? k).getD 0 + 1)⟩

def ofCommands (commands : List Text) : Tally := commands.foldl record {}

end Tally
end CommandWrap
