import CommandWrap.Text.Letter

/-! Tokens of the shell grammar, and what a token says about the word behind it. -/
namespace CommandWrap.Shell

/-- Reserved words. The grammar has no rule for `unsupported` ones. -/
inductive Keyword
  | openIf | thenPart | elifPart | elsePart | closeIf
  | whileLoop | untilLoop | forLoop | inList | openDo | closeDo
  | function | openBrace | closeBrace | bang
  | unsupported
deriving DecidableEq

inductive Redirection
  | input | output | append | clobber | readWrite
  | duplicateInput | duplicateOutput
  | both | appendBoth
  | hereString
  /-- With `stripTabs`, tabs in front of the lines of the document do not count. -/
  | hereDocument (stripTabs : Bool)
deriving DecidableEq

inductive Token
  | word (text : Text)
  /-- A word of the form `name=value` where a command may start. -/
  | assignment (text : Text)
  /-- A descriptor in front of a redirection, or the target of a duplication. -/
  | number
  /-- The target of a duplication that closes a descriptor. -/
  | dash
  /-- `documents` says that here-documents follow and belong to the token. -/
  | newline (documents : Bool)
  | keyword (k : Keyword)
  | redirection (r : Redirection)
  | andIf | orIf | semicolon | background | pipe
  | openParen
  /-- `complete` says that no here-document is awaited, or that its text stands right behind. -/
  | closeParen (complete : Bool)
  /-- One of the three ends of a clause, for which the grammar has no rule. -/
  | clauseEnd
  /-- The text cannot be cut into tokens any further. -/
  | unreadable
deriving DecidableEq

/-- A token with the text behind it. -/
structure Placed where
  token : Token
  behind : Text

namespace Keyword

def table : List (Text × Keyword) :=
  [("if", openIf), ("then", thenPart), ("elif", elifPart), ("else", elsePart), ("fi", closeIf),
    ("while", whileLoop), ("until", untilLoop), ("for", forLoop), ("in", inList),
    ("do", openDo), ("done", closeDo), ("function", function),
    ("\x7b", openBrace), ("\x7d", closeBrace), ("!", bang),
    ("case", unsupported), ("esac", unsupported), ("select", unsupported), ("time", unsupported),
    ("coproc", unsupported), ("[[", unsupported), ("]]", unsupported)]

def ofText? (t : Text) : Option Keyword := table.lookup t

end Keyword

def Redirection.symbol : Redirection → Text
  | input => "<"
  | output => ">"
  | append => ">>"
  | clobber => ">|"
  | readWrite => "<>"
  | duplicateInput => "<&"
  | duplicateOutput => ">&"
  | both => "&>"
  | appendBoth => "&>>"
  | hereString => "<<<"
  | hereDocument false => "<<"
  | hereDocument true => "<<-"

def Redirection.isDuplication : Redirection → Bool
  | duplicateInput | duplicateOutput => true
  | _ => false

/-- A command may start behind the token, so that a reserved word there is one. -/
def Token.startsCommandBehind : Token → Bool
  | newline _ | semicolon | background | pipe | andIf | orIf => true
  | openParen | closeParen _ | clauseEnd => true
  | keyword .inList | keyword .forLoop | keyword .function => false
  | keyword _ => true
  | _ => false

def Token.isDuplication : Token → Bool
  | redirection r => r.isDuplication
  | _ => false

end CommandWrap.Shell

namespace CommandWrap.CodePoint

/-- Spaces and tabs separate tokens without being any. -/
def isShellBlank (c : CodePoint) : Bool := c = ' ' || c = '\t'

/-- The signs that operators start with. -/
def isShellMeta (c : CodePoint) : Bool :=
  c = '(' || c = ')' || c = '<' || c = '>' || c = ';' || c = '&' || c = '|'

/-- What ends a word. -/
def isShellBreak (c : CodePoint) : Bool := c.isShellMeta || c.isShellBlank || c = '\n'

def isShellQuote (c : CodePoint) : Bool := c = '\'' || c = '"' || c = '`'

end CommandWrap.CodePoint
