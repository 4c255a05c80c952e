import CommandWrap.Shell.Enclosure
import CommandWrap.Shell.Token

/-!
Cuts a text into tokens. Reserved words, assignments and numbers depend on the tokens in front. The
text of a here-document stands behind the line of its operator and belongs to the line feed.
-/
namespace CommandWrap.Shell

/-- What is known where a token starts. -/
structure Context where
  last : Option Token := none
  beforeLast : Option Token := none
  /-- An opening brace is one here, whatever stands in front. -/
  braceAllowed : Bool := false
  /-- Delimiters of the here-documents that the line feed starts, and whether they strip tabs. -/
  awaited : List (Text × Bool) := []

namespace Lexer

/-! ### Here-documents -/

/-- The rest of a line, and the text behind the line. -/
def joinedLine : Text → Text × Text
  | [] => ([], [])
  | [c] => if c = '\n' then ([], []) else ([c], [])
  | c :: d :: rest =>
    if c = '\\' ∧ d = '\n' then joinedLine rest
    else if c = '\n' then ([], d :: rest)
    else (c :: (joinedLine (d :: rest)).1, (joinedLine (d :: rest)).2)

/-- The text behind the first line that is the delimiter. -/
def behindDocument : (fuel : Nat) → (delimiter : Text) → (stripTabs : Bool) → Text → Option Text
  | 0, _, _, _ => none
  | fuel + 1, delimiter, stripTabs, t =>
    if dropJoins t = [] then none
    else
      let (line, rest) := joinedLine t
      let line := if stripTabs then line.dropWhile fun c : CodePoint => c = '\t' else line
      if line = delimiter then some rest else behindDocument fuel delimiter stripTabs rest

/-- The text behind all documents that are awaited. -/
def behindDocuments (awaited : List (Text × Bool)) (t : Text) : Option Text :=
  awaited.foldlM (fun t (delimiter, stripTabs) => behindDocument (t.length + 1) delimiter stripTabs t) t

/-! ### Words -/

open Enclosure in
/-- The word that starts here, as written but for joined line ends, and the text behind it. -/
def word : (fuel : Nat) → Text → Enclosed
  | 0, _ => none
  | fuel + 1, t =>
    match dropJoins t with
    | [] => some ([], [])
    | c :: rest =>
      if c = '\\' then
        match rest with
        | [] => none
        | d :: rest => prepend [c, d] (word fuel rest)
      else if c.isShellQuote then followed [c] (quote (t.length + 1) false c rest) (word fuel)
      else if c = '$' ∨ c = '<' ∨ c = '>' then
        match dropJoins rest with
        | [] => none
        | d :: behind =>
          if d = '(' ∨ (c = '$' ∧ opensBehindDollar d) then
            followed [c, d] (dollarPart (t.length + 1) d behind) (word fuel)
          else if c ≠ '$' then some ([], c :: rest)
          else if d = '\'' then followed [c, d] (escapedSingle behind) (word fuel)
          else if d = '"' then followed [c, d] (double (t.length + 1) false behind) (word fuel)
          else if d = '$' then prepend [c, d] (word fuel behind)
          else prepend [c] (word fuel rest)
      else if c.isShellBreak then some ([], c :: rest)
      else prepend [c] (word fuel rest)

/-- A name and an equals sign, or a plus and an equals sign, stand in front. -/
def isAssignment (t : Text) : Bool :=
  match t with
  | [] => false
  | first :: _ =>
    let sign : Text := t.dropWhile fun c : CodePoint => c.isLetterOrNumber || c = '_'
    (first.isLetter || first = '_') &&
      (List.isPrefixOf ("=" : Text) sign || List.isPrefixOf ("+=" : Text) sign)

/-- The most digits that a number may have. -/
def maxDigits : Nat := 4300

def isNumber (context : Context) (t behind : Text) : Bool :=
  t.all CodePoint.isDecimal && t.length ≤ maxDigits &&
    (behind.head? = some '<' || behind.head? = some '>' ||
      context.last.any Token.isDuplication)

def isWord : Option Token → Bool
  | some (.word _) => true
  | _ => false

/-- A command may start where the context ends. -/
def atCommand (context : Context) : Bool := context.last.all Token.startsCommandBehind

/-- A reserved word, if the text is one here. -/
def keyword? (context : Context) (t : Text) : Option Keyword :=
  let behindLoopName := isWord context.last && context.beforeLast = some (.keyword .forLoop)
  if t = "in" ∧ behindLoopName then some .inList
  else if t = "do" ∧ behindLoopName then some .openDo
  else if t = "\x7b" ∧ context.braceAllowed then some .openBrace
  else if atCommand context then Keyword.ofText? t
  else none

def isAssignmentToken : Option Token → Bool
  | some (.assignment _) => true
  | _ => false

/-- The token that a word is. -/
def classify (context : Context) (t behind : Text) : Token :=
  if isNumber context t behind then .number
  else match keyword? context t with
    | some k => .keyword k
    | none =>
      if isAssignment t && (atCommand context || isAssignmentToken context.last) then .assignment t
      else .word t

/-! ### Operators -/

/-- Where reading goes on behind an operator once the sign behind it was seen. A line end joined to
nothing ends the line even so. -/
def resume (t : Text) : Text := if dropJoins t = [] then "\n" else dropJoins t

/-- The operator that the sign `c` starts; none if it starts a word. -/
def operator? (context : Context) (c : CodePoint) (rest : Text) : Option Placed :=
  let read (token : Token) (behind : Text) : Option Placed := some ⟨token, behind⟩
  let first := (dropJoins rest).head?
  let behind := (dropJoins rest).drop 1
  let second := (dropJoins behind).head?
  let behindSecond := (dropJoins behind).drop 1
  if c = '<' ∧ first = some '<' then
    if second = some '-' then read (.redirection (.hereDocument true)) behindSecond
    else if second = some '<' then read (.redirection .hereString) behindSecond
    else read (.redirection (.hereDocument false)) (resume behind)
  else if c = '>' ∧ first = some '>' then read (.redirection .append) behind
  else if c = ';' ∧ first = some ';' then
    read .clauseEnd (if second = some '&' then behindSecond else resume behind)
  else if c = '&' ∧ first = some '&' then read .andIf behind
  else if c = '|' ∧ first = some '|' then read .orIf behind
  else if c = '<' ∧ first = some '&' then read (.redirection .duplicateInput) behind
  else if c = '>' ∧ first = some '&' then read (.redirection .duplicateOutput) behind
  else if c = '<' ∧ first = some '>' then read (.redirection .readWrite) behind
  else if c = '>' ∧ first = some '|' then read (.redirection .clobber) behind
  else if c = '&' ∧ first = some '>' then
    if second = some '>' then read (.redirection .appendBoth) behindSecond
    else read (.redirection .both) (resume behind)
  else if c = '|' ∧ first = some '&' then read .pipe behind
  else if c = ';' ∧ first = some '&' then read .clauseEnd behind
  else if (c = '<' ∨ c = '>') ∧ first = some '(' then none
  else if c = '<' then read (.redirection .input) (resume rest)
  else if c = '>' then read (.redirection .output) (resume rest)
  else if c = ';' then read .semicolon (resume rest)
  else if c = '&' then read .background (resume rest)
  else if c = '|' then read .pipe (resume rest)
  else if c = '(' then read .openParen (resume rest)
  else
    read (.closeParen (behindDocuments context.awaited (resume rest)).isSome) (resume rest)

/-! ### Tokens -/

def skipBlanks : (fuel : Nat) → Text → Text
  | 0, t => t
  | fuel + 1, t =>
    match dropJoins t with
    | [] => []
    | c :: rest => if c.isShellBlank then skipBlanks fuel rest else c :: rest

def unreadable : Placed := ⟨.unreadable, []⟩

def newline (context : Context) (behind : Text) : Placed :=
  match behindDocuments context.awaited behind with
  | some rest => ⟨.newline (context.awaited ≠ []), rest⟩
  | none => unreadable

/-- The token at the start of the text, blanks and comments skipped. -/
def token? (context : Context) (t : Text) : Option Placed :=
  match skipBlanks (t.length + 1) t with
  | [] => none
  | c :: rest =>
    let asWord := match word (t.length + 1) (c :: rest) with
      | some (read, behind) => some ⟨classify context read behind, behind⟩
      | none => some unreadable
    if c = '#' then
      some (newline context ((rest.dropWhile fun c : CodePoint => c ≠ '\n').drop 1))
    else if c = '\n' then some (newline context rest)
    else if c.isShellMeta then (operator? context c rest).or asWord
    else if c = '-' ∧ context.last.any Token.isDuplication then some ⟨.dash, rest⟩
    else asWord

/-- The context behind a token. -/
def contextBehind (context : Context) (token : Token) : Context :=
  let allowed := match token with
    | .closeParen _ => context.braceAllowed ||
      (context.last = some .openParen && isWord context.beforeLast)
    | .word _ => context.last = some (.keyword .function)
    | .assignment _ | .keyword _ => false
    | _ => context.braceAllowed
  let awaited := match token, context.last with
    | .newline _, _ => []
    | .word t, some (.redirection (.hereDocument stripTabs)) => context.awaited ++ [(t, stripTabs)]
    | _, _ => context.awaited
  ⟨some token, context.last, allowed, awaited⟩

def tokensFrom : (fuel : Nat) → Context → Text → List Placed
  | 0, _, _ => []
  | fuel + 1, context, t =>
    match token? context t with
    | none => []
    | some placed =>
      if placed.token = .unreadable then [placed]
      else placed :: tokensFrom fuel (contextBehind context placed.token) placed.behind

/-- A last line without a line feed gets one. -/
def closed (t : Text) : Text := if t = [] ∨ t.getLast? = some '\n' then t else t ++ "\n"

/-- The tokens of a text, up to the first that cannot be read. -/
def tokens (t : Text) : List Placed := tokensFrom ((closed t).length + 1) {} (closed t)

end Lexer
end CommandWrap.Shell
