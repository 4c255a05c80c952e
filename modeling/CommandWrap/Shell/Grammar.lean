import CommandWrap.Shell.Lexer
import CommandWrap.Shell.Tree

/-!
The shell grammar over tokens. A reader takes tokens from the front; it fails where the grammar has no
rule. Only the parts of simple commands are kept, as nothing else is asked of a tree.
-/
namespace CommandWrap.Shell

abbrev Reader := StateT (List Placed) Option

/-- A tree and the text behind its last token. -/
structure Phrase where
  tree : Tree
  behind : Text

namespace Grammar

/-! ### Tokens -/

def fail {α : Type} : Reader α := fun _ => none

def peek : Reader (Option Token) := fun tokens => some (tokens.head?.map (·.token), tokens)

/-- Takes the next token, which has to be in the class, and gives the text behind it. -/
def take (class? : Token → Bool) : Reader Text
  | [] => none
  | placed :: rest => if class? placed.token then some (placed.behind, rest) else none

def token (t : Token) : Reader Text := take (· = t)

def keyword (k : Keyword) : Reader Text := token (.keyword k)

def isNewline : Token → Bool
  | .newline _ => true
  | _ => false

def isClosing : Token → Bool
  | .closeParen _ => true
  | _ => false

def newlines : Reader Unit := fun tokens =>
  some ((), tokens.dropWhile fun placed => isNewline placed.token)

/-! ### Simple commands -/

/-- How the parts of a word are read. -/
abbrev Expand := Text → Option (List Tree)

def word (expand : Expand) (kind t : Text) : Reader Tree := (expand t).map (Tree.of kind)

def startsElement : Token → Bool
  | .word _ | .assignment _ | .number | .redirection _ => true
  | _ => false

/-- A descriptor may stand in front of the redirection. -/
def takesDescriptor : Redirection → Bool
  | .both | .appendBoth => false
  | _ => true

def isHereDocument : Redirection → Bool
  | .hereDocument _ => true
  | _ => false

/-- Where a redirection leads. -/
def target (expand : Expand) (r : Redirection) : Reader Phrase
  | ⟨.word t, behind⟩ :: rest =>
    if isHereDocument r then some (⟨.redirect r.symbol (.of "word" []), behind⟩, rest)
    else (expand t).map fun parts => (⟨.redirect r.symbol (.of "word" parts), behind⟩, rest)
  | ⟨.number, behind⟩ :: rest | ⟨.dash, behind⟩ :: rest =>
    if r.isDuplication then some (⟨.redirect r.symbol .leaf, behind⟩, rest) else none
  | _ => none

def redirection (expand : Expand) : Reader Phrase
  | ⟨.number, _⟩ :: ⟨.redirection r, _⟩ :: rest =>
    if takesDescriptor r then target expand r rest else none
  | ⟨.redirection r, _⟩ :: rest => target expand r rest
  | _ => none

/-- A word, an assignment or a redirection. -/
def element (expand : Expand) : Reader Phrase
  | ⟨.word t, behind⟩ :: rest =>
    (expand t).map fun parts => (⟨.of "word" parts, behind⟩, rest)
  | ⟨.assignment t, behind⟩ :: rest =>
    (expand t).map fun parts => (⟨.of "assignment" parts, behind⟩, rest)
  | tokens => redirection expand tokens

/-- The elements behind those in `front`, of which the last is `last`. -/
def elements (expand : Expand) : (fuel : Nat) → (front : List Tree) → (last : Text) → Reader Phrase
  | 0, _, _ => fail
  | fuel + 1, front, last => do
    if (← peek).any startsElement then
      let e ← element expand
      elements expand fuel (front ++ [e.tree]) e.behind
    else return ⟨.of "command" front, last⟩

def simpleCommand (expand : Expand) (fuel : Nat) : Reader Phrase := do
  let e ← element expand
  elements expand fuel [e.tree] e.behind

/-- Redirections behind a compound command. -/
def redirections (expand : Expand) : (fuel : Nat) → (last : Text) → Reader Text
  | 0, _ => fail
  | fuel + 1, last => do
    match ← peek with
    | some .number | some (.redirection _) => redirections expand fuel (← redirection expand).behind
    | _ => return last

/-! ### Commands -/

/-- A command may start with the token. -/
def startsCommand : Token → Bool
  | .keyword .openIf | .keyword .whileLoop | .keyword .untilLoop | .keyword .forLoop => true
  | .keyword .function | .keyword .openBrace | .keyword .bang | .openParen => true
  | t => startsElement t

/-- The words that a loop runs over. -/
def loopWords (expand : Expand) : (fuel : Nat) → Reader Unit
  | 0 => fail
  | fuel + 1 => do
    match ← peek with
    | some (.word t) =>
      let _ ← word expand "word" t
      let _ ← take fun _ => true
      loopWords expand fuel
    | _ => return

/-- The name of a function or of the variable of a loop. -/
def name (expand : Expand) : Reader Unit := do
  match ← peek with
  | some (.word t) =>
    let _ ← word expand "word" t
    let _ ← take fun _ => true
  | _ => fail

/-- What stands between the variable of a loop and its body. -/
def loopHead (expand : Expand) (fuel : Nat) : Reader Unit := do
  if (← peek) = some .semicolon then
    let _ ← token .semicolon
    newlines
  else
    newlines
    if (← peek) = some (.keyword .inList) then
      let _ ← keyword .inList
      loopWords expand fuel
      let _ ← take fun t => t = .semicolon || isNewline t
      newlines

def compound (behind : Text) : Phrase := ⟨.of "compound" [], behind⟩

mutual

/-- A compound command without redirections, and the text behind it. -/
def shellCommand (expand : Expand) : (fuel : Nat) → Reader Text
  | 0 => fail
  | fuel + 1 => do
    match ← peek with
    | some .openParen =>
      let _ ← token .openParen
      let _ ← compoundList expand fuel
      take isClosing
    | some (.keyword .openBrace) => body expand fuel .openBrace .closeBrace
    | some (.keyword .openIf) =>
      let _ ← keyword .openIf
      condition expand fuel
    | some (.keyword .whileLoop) => whileLoop expand fuel .whileLoop
    | some (.keyword .untilLoop) => whileLoop expand fuel .untilLoop
    | some (.keyword .forLoop) =>
      let _ ← keyword .forLoop
      name expand
      loopHead expand fuel
      if (← peek) = some (.keyword .openDo) then body expand fuel .openDo .closeDo
      else body expand fuel .openBrace .closeBrace
    | _ => fail

/-- Commands between two keywords. -/
def body (expand : Expand) : (fuel : Nat) → (first last : Keyword) → Reader Text
  | 0, _, _ => fail
  | fuel + 1, first, last => do
    let _ ← keyword first
    let _ ← compoundList expand fuel
    keyword last

/-- The condition of a loop is more than one command, or ends in a semicolon or an ampersand. -/
def whileLoop (expand : Expand) : (fuel : Nat) → Keyword → Reader Text
  | 0, _ => fail
  | fuel + 1, k => do
    let _ ← keyword k
    if ← compoundList expand fuel then body expand fuel .openDo .closeDo else fail

/-- Behind `if` or `elif`. -/
def condition (expand : Expand) : (fuel : Nat) → Reader Text
  | 0 => fail
  | fuel + 1 => do
    let _ ← compoundList expand fuel
    let _ ← keyword .thenPart
    let _ ← compoundList expand fuel
    match ← peek with
    | some (.keyword .elifPart) =>
      let _ ← keyword .elifPart
      condition expand fuel
    | some (.keyword .elsePart) => body expand fuel .elsePart .closeIf
    | _ => keyword .closeIf

/-- A compound command with its redirections. -/
def redirected (expand : Expand) : (fuel : Nat) → Reader Text
  | 0 => fail
  | fuel + 1 => do
    let behind ← shellCommand expand fuel
    redirections expand fuel behind

/-- The parentheses of a function definition, if `required` or if they are there, and its body. -/
def definition (expand : Expand) : (fuel : Nat) → (required : Bool) → Reader Phrase
  | 0, _ => fail
  | fuel + 1, required => do
    name expand
    if required || (← peek) = some .openParen then
      let _ ← token .openParen
      let _ ← take isClosing
    newlines
    return ⟨.of "function" [], ← redirected expand fuel⟩

def command (expand : Expand) : (fuel : Nat) → Reader Phrase
  | 0 => fail
  | fuel + 1 => fun tokens =>
    match tokens with
    | ⟨.word _, _⟩ :: ⟨.openParen, _⟩ :: _ => definition expand fuel true tokens
    | ⟨.keyword .function, _⟩ :: rest => definition expand fuel false rest
    | ⟨t, _⟩ :: _ =>
      if startsElement t then simpleCommand expand tokens.length tokens
      else (compound <$> redirected expand fuel) tokens
    | [] => none

/-- Commands joined by pipes; how many, and the last one. -/
def pipeline (expand : Expand) : (fuel : Nat) → Reader (Nat × Phrase)
  | 0 => fail
  | fuel + 1 => do
    let first ← command expand fuel
    if (← peek) = some .pipe then
      let _ ← token .pipe
      newlines
      let (count, last) ← pipeline expand fuel
      return (count + 1, last)
    else return (1, first)

/-- A pipeline, negated any number of times. Nothing but a negation may stand in front of a
semicolon. -/
def negated (expand : Expand) : (fuel : Nat) → Reader Phrase
  | 0 => fail
  | fuel + 1 => do
    if (← peek) = some (.keyword .bang) then
      let _ ← keyword .bang
      if (← peek) = some .semicolon then return ⟨.of "pipeline" [], ← token .semicolon⟩
      else return ⟨.of "pipeline" [], (← negated expand fuel).behind⟩
    else
      let (count, last) ← pipeline expand fuel
      return if count = 1 then last else ⟨.of "pipeline" [], last.behind⟩

/-- Commands in a compound command. Tells whether they are more than one or end in a semicolon or an
ampersand. -/
def compoundList (expand : Expand) : (fuel : Nat) → Reader Bool
  | 0 => fail
  | fuel + 1 => do
    newlines
    let _ ← negated expand fuel
    match ← peek with
    | some .andIf | some .orIf =>
      let _ ← take fun _ => true
      let _ ← compoundList expand fuel
      return true
    | some .semicolon | some .background =>
      let _ ← take fun _ => true
      newlines
      if (← peek).any startsCommand then
        let _ ← compoundList expand fuel
      return true
    | some (.newline _) =>
      newlines
      if (← peek).any startsCommand then
        let _ ← compoundList expand fuel
        return true
      else return false
    | _ => return false

end

end Grammar
end CommandWrap.Shell
