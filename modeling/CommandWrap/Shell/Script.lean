import CommandWrap.Shell.Expansion
import CommandWrap.Shell.Grammar

/-!
A script is a sequence of commands, one behind the other, each up to a line feed. Words hold commands
of their own, down to a depth.
-/
namespace CommandWrap.Shell.Script

open Grammar

/-- How a command is closed: by a line feed, or inside parentheses also by the closing one. -/
inductive Closing
  | line
  | parenthesis
deriving DecidableEq

/-- Commands of one line joined by operators. `joined` is the operator in front, if there is one. -/
def commands (expand : Expand) (closing : Closing) : (fuel : Nat) → (joined : Option Token) →
    Reader Phrase
  | 0, _ => fail
  | fuel + 1, joined => do
    let e ← negated expand (fuel + 1)
    let single := if joined = none then e else ⟨.of "list" [], e.behind⟩
    match ← peek with
    | some .andIf =>
      let _ ← token .andIf
      newlines
      commands expand closing fuel (some .andIf)
    | some .orIf =>
      let _ ← token .orIf
      newlines
      commands expand closing fuel (some .orIf)
    | some .semicolon =>
      let behind ← token .semicolon
      if (← peek).any startsCommand then commands expand closing fuel (some .semicolon)
      else
        let _ ← take isNewline
        return ⟨.of "list" [], behind⟩
    | some .background =>
      let behind ← token .background
      if (← peek).any startsCommand then commands expand closing fuel (some .background)
      else
        let _ ← take isNewline
        return ⟨.of "list" [], behind⟩
    | some (.closeParen true) =>
      if closing = .parenthesis ∧ (joined = none ∨ joined = some .semicolon) then return single
      else fail
    | _ =>
      let _ ← take isNewline
      return single

/-- The text behind the last here-document among tokens. -/
def behindDocuments? (tokens : List Placed) : Option Text :=
  (tokens.reverse.find? fun placed => placed.token = .newline true).map (·.behind)

/-- The first command of a text and the text behind it; `some none` if the text is blank. What stands
behind the closing line feed has to start with a token. -/
def first? (expand : Expand) (closing : Closing) (t : Text) : Option (Option Phrase) :=
  let tokens := (Lexer.tokens t).dropWhile fun placed => isNewline placed.token
  if tokens.isEmpty then some none
  else
    let fuel := 10 * (tokens.length + 1)
    (commands expand closing fuel none tokens).bind fun (phrase, rest) =>
      if rest.head?.any fun placed => placed.token = .unreadable then none
      else
        let behind := match behindDocuments? (tokens.take (tokens.length - rest.length)) with
          | some documentBehind =>
            if documentBehind.length < phrase.behind.length then '\n' :: documentBehind
            else phrase.behind
          | none => phrase.behind
        some (some ⟨phrase.tree, behind⟩)

/-- How commands inside words are read, given how words are. -/
def nested (expand : Expand) : Expansion.Nested where
  parenthesised t := (first? expand .parenthesis t).bind fun phrase =>
    phrase.map fun phrase => (phrase.tree, phrase.behind)
  backquoted t := (first? expand .line t).bind fun phrase => phrase.map (·.tree)

/-- The parts of a word in which commands nest up to a depth. -/
def expandWithin : (depth : Nat) → Expand
  | 0, _ => none
  | depth + 1, word => Expansion.ofWord? (nested (expandWithin depth)) word

/-- The commands of a text; one sign behind the end of each separates it from the next. -/
def commandsOf (expand : Expand) : (fuel : Nat) → Text → Option (List Tree)
  | 0, _ => some []
  | fuel + 1, t =>
    (first? expand .line t).bind fun phrase =>
      match phrase with
      | none => some []
      | some phrase => (commandsOf expand fuel (phrase.behind.drop 1)).map (phrase.tree :: ·)

/-- The commands of a script; a blank one is none. In the words of a command, commands nest up to
`depth` levels. -/
def parse? (depth : Nat) (t : Text) : Option (List Tree) :=
  (commandsOf (expandWithin (depth + 1)) (t.length + 1) t).filter fun commands => !commands.isEmpty

end CommandWrap.Shell.Script
