import CommandWrap.Json.Basic
import CommandWrap.Path

/-! Settings: which commands are rewritten, how, and what is logged. -/
namespace CommandWrap

/-- Commands that are wrapped when no settings say otherwise. -/
def defaultPatterns : List Text :=
  ["git status", "git diff", "git log", "gh",
    "ls", "cat", "rg", "grep", "find",
    "cargo", "pytest", "go test", "go build", "go vet", "vitest", "npm test",
    "eslint", "tsc", "ruff", "golangci-lint", "prettier",
    "docker", "kubectl",
    "pip", "curl"]

/-- Commands that the compressor knows under another name. -/
def defaultAliases : Entries Text :=
  [("cat", "rtk read"), ("rg", "rtk grep"), ("eslint", "rtk lint")]

structure Settings where
  enabled : Bool := true
  patterns : List Text := defaultPatterns
  /-- What replaces the first word of a command. -/
  aliases : Entries Text := defaultAliases
  /-- Rewritten commands need no confirmation. -/
  autoApprove : Bool := false
  log : Option Path := none
  /-- The log holds whole commands, and not only their names. -/
  logFull : Bool := false

namespace Settings

/-- Two alias tables with the same pairs, in any order. -/
def sameAliases (a b : Entries Text) : Bool :=
  a.length = b.length && a.all fun (key, value) => b.get? key = some value

/-- Equality of settings, without regard to the order of the aliases. -/
def same (a b : Settings) : Bool :=
  a.enabled = b.enabled && a.patterns = b.patterns && sameAliases a.aliases b.aliases &&
    a.autoApprove = b.autoApprove && a.log = b.log && a.logFull = b.logFull

/-- Agreement in all but the aliases: equal settings agree, and may share a hash. -/
def sameButAliases (a b : Settings) : Bool :=
  a.enabled = b.enabled && a.patterns = b.patterns &&
    a.autoApprove = b.autoApprove && a.log = b.log && a.logFull = b.logFull

end Settings
end CommandWrap
