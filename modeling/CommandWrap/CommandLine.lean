import CommandWrap.Explanation
import CommandWrap.Workspace

/-! The command line: without arguments it answers a tool call, else it runs a subcommand. -/
namespace CommandWrap.CommandLine

/-- How a run ends, and what it prints. -/
structure Exit where
  code : Nat
  output : Text

def usage : Text := Text.lines
  ["Usage: rtk-hook [explain <command> | gain [SESSION_ID] | status | help]",
    "",
    "With no arguments, runs as a Claude Code PreToolUse hook: reads the tool call",
    "JSON on stdin and rewrites eligible Bash commands to run through rtk.",
    "",
    "Commands:",
    "  explain <command>   Show each check and the resulting decision",
    "  gain [SESSION_ID]   Show rewrite stats for a session (default: latest)",
    "  status              Check that rtk is on PATH and the config loads",
    "  help                Show this help message",
    ""]

def printed (t : Text) : Exit := ⟨0, t ++ "\n"⟩

/-- Prints a text, unless standard output has no bytes for it. -/
def print (t : Text) : Action Exit := do
  match Utf8.encodeError? (← get).printable 0 t with
  | some error => throw (.unprintable error)
  | none => return printed t

def refused : Exit := ⟨1, []⟩

/-- Answers the tool call on standard input. A fault is reported, and the call passes. -/
def answer (input : Text) : Action Exit := do
  let response ←
    try Workspace.runHook input
    catch fault =>
      Workspace.say ("rtk-hook: " ++ fault.message)
      pure (.object [])
  print response.render

def explain (words : List Text) : Action Exit := do
  if words = [] then
    Workspace.say "Usage: rtk-hook explain <command>"
    return refused
  else
    let settings ← Workspace.loadSettings (← Workspace.settingsPath)
    print (Explanation.render (← get).limits.words settings (Text.join " " words))

def unknown (word : Text) : Action Exit := do
  Workspace.say ("Unknown command: " ++ word)
  Workspace.say "Run `rtk-hook help` for usage information."
  return refused

def helpWords : List Text := ["help", "-h", "--help"]

def run (arguments : List Text) (input : Text) : Action Exit :=
  match arguments with
  | [] => answer input
  | word :: rest =>
    if word = "explain" then explain rest
    else if word = "gain" then do print (← Workspace.gain rest.head?)
    else if word = "status" then do print (← Workspace.status)
    else if helpWords.contains word then return ⟨0, usage⟩
    else unknown word

end CommandWrap.CommandLine
