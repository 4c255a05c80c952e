import CommandWrap.Shell.Token

/-!
Enclosed parts of a word: quotes, `$(…)`, `${…}` and the like. A reader starts behind the opening
sign and returns what it read, the closing sign included, and the text behind it. It fails when the
closing sign is missing. A backslash and a line feed behind it are dropped wherever they have no
other meaning.
-/
namespace CommandWrap.Shell

/-- Drops joined line ends. -/
def dropJoins : Text → Text
  | c :: d :: rest => if c = '\\' ∧ d = '\n' then dropJoins rest else c :: d :: rest
  | t => t

/-- What was read, and the text behind it. -/
abbrev Enclosed := Option (Text × Text)

namespace Enclosure

/-- Puts `front` before what is read. -/
def prepend (front : Text) (e : Enclosed) : Enclosed := e.map fun (read, rest) => (front ++ read, rest)

/-- What is read first, and what `next` reads behind it. -/
def followed (front : Text) (first : Enclosed) (next : Text → Enclosed) : Enclosed :=
  first.bind fun (read, rest) => prepend (front ++ read) (next rest)

/-- `'…'`, where no sign is special. -/
def single : Text → Enclosed
  | [] => none
  | c :: rest => if c = '\'' then some ([c], rest) else prepend [c] (single rest)

/-- `$'…'`, where a backslash takes the next sign with it. -/
def escapedSingle : Text → Enclosed
  | [] => none
  | c :: rest =>
    if c = '\'' then some ([c], rest)
    else if c = '\\' then
      match rest with
      | [] => none
      | d :: rest => prepend [c, d] (escapedSingle rest)
    else prepend [c] (escapedSingle rest)

/-- Between backquotes only the backslash is special. -/
def backquoted : (fuel : Nat) → Text → Enclosed
  | 0, _ => none
  | fuel + 1, t =>
    match dropJoins t with
    | [] => none
    | c :: rest =>
      if c = '`' then some ([c], rest)
      else if c = '\\' then
        match rest with
        | [] => none
        | d :: rest => prepend [c, d] (backquoted fuel rest)
      else prepend [c] (backquoted fuel rest)

/-- Where the reader of a `$(…)` stands with regard to here-documents. -/
inductive Document
  | absent
  /-- Behind the operator: the delimiter is being read from length `start`, or was read. -/
  | announced (start : Option Nat) (delimiter : Option Text)
  | inside (delimiter : Text)

/-- The state of the reader of a `$(…)`. Parentheses count unless they belong to the patterns of a
`case`, so reserved words are watched for where a command may start. -/
structure Substitution where
  /-- What was read, last first. -/
  read : Text := []
  depth : Nat := 1
  inCase : Bool := false
  keywordAllowed : Bool := true
  /-- Letters read so far where a keyword may stand. -/
  letters : Nat := 0
  /-- How far into a word the reader is, if it is in one. -/
  wordLength : Option Nat := none
  comment : Bool := false
  dollar : Bool := false
  document : Document := .absent
  stripTabs : Bool := false

namespace Substitution

def push (s : Substitution) (c : CodePoint) : Substitution := { s with read := c :: s.read }

/-- The line being read, without the tabs in front that do not count. -/
def line (s : Substitution) : Text :=
  let line := (s.read.takeWhile fun c : CodePoint => c ≠ '\n').reverse
  if s.stripTabs then line.dropWhile fun c : CodePoint => c = '\t' else line

/-- At a line feed, a here-document starts or ends. -/
def atLineFeed (s : Substitution) : Substitution :=
  match s.document with
  | .announced _ (some delimiter) => { s with document := .inside delimiter }
  | .inside delimiter =>
    if delimiter.isPrefixOf s.line then { s with document := .absent, stripTabs := false } else s
  | _ => s

/-- A closing parenthesis may stand right behind the last line of a here-document. -/
def atClosing (s : Substitution) : Substitution :=
  match s.document with
  | .inside delimiter =>
    if s.depth = 1 ∧ s.line = delimiter then { s with document := .absent, stripTabs := false } else s
  | _ => s

def isInert (s : Substitution) : Bool :=
  s.comment || match s.document with
    | .inside _ => true
    | _ => false

def trackWord (s : Substitution) (c : CodePoint) : Substitution :=
  { s with wordLength := if c.isShellBreak then none else some ((s.wordLength.map (· + 1)).getD 0) }

/-- Quotes do not belong to a delimiter. -/
def delimiterText (t : Text) : Text := t.filter fun c => !c.isShellQuote && c ≠ '\\'

def trackDelimiter (s : Substitution) (c : CodePoint) : Substitution :=
  match s.document with
  | .announced none delimiter =>
    if c.isShellBreak then s else { s with document := .announced (some s.read.length) delimiter }
  | .announced (some start) delimiter =>
    if !c.isShellBreak then s
    else
      let read := delimiterText (s.read.take (s.read.length - start)).reverse
      let delimiter := delimiter.getD read
      { s with document := if c = '\n' then .inside delimiter else .announced none (some delimiter) }
  | _ => s

def wordIs (s : Substitution) (word : Text) : Bool := s.read.take word.length = word.reverse

/-- What a sign that is no small letter says about keywords. -/
def trackKeyword (s : Substitution) (c : CodePoint) : Substitution :=
  if s.letters = 4 ∧ c.isShellBreak then
    if s.wordIs "case" then { s with inCase := true, keywordAllowed := false }
    else if s.wordIs "esac" then { s with inCase := false, letters := 0 }
    else if s.wordIs "done" || s.wordIs "then" || s.wordIs "else" then { s with letters := 0 }
    else if c.isShellBlank then { s with keywordAllowed := false }
    else s
  else if c = '#' ∧ (s.letters = 0 ∨ s.wordLength = some 0) then s
  else if !s.inCase ∧ (c.isShellBlank ∨ c = '\n') ∧ s.letters = 2 ∧ s.wordIs "do" then
    { s with letters := 0 }
  else if s.inCase ∧ c ≠ '\n' then { s with keywordAllowed := false }
  else if !c.isShellBreak then { s with keywordAllowed := false }
  else s

def startsComment (s : Substitution) (c : CodePoint) : Bool :=
  c = '#' && ((s.keywordAllowed && s.letters = 0) || s.wordLength = some 0)

def trackParens (s : Substitution) (c : CodePoint) : Substitution :=
  if s.inCase then s
  else if c = ')' then { s with depth := s.depth - 1 }
  else if c = '(' then { s with depth := s.depth + 1 }
  else s

end Substitution

/-- A sign that opens a part behind a dollar. -/
def opensBehindDollar (c : CodePoint) : Bool := c = '(' || c = '\x7b' || c = '['

mutual

/-- The part that the quote `c` opens. -/
def quote : (fuel : Nat) → (dollar : Bool) → (c : CodePoint) → Text → Enclosed
  | 0, _, _, _ => none
  | fuel + 1, dollar, c, t =>
    if c = '"' then double fuel false t
    else if c = '`' then backquoted fuel t
    else if dollar then escapedSingle t
    else single t

/-- The part that `c` opens behind a dollar. -/
def dollarPart : (fuel : Nat) → (c : CodePoint) → Text → Enclosed
  | 0, _, _ => none
  | fuel + 1, c, t =>
    if c = '(' then
      if t.head? = some '(' then balanced fuel '(' ')' 1 false t
      else (substituted fuel {} t).map fun (s, rest) => (s.reverse, rest)
    else if c = '\x7b' then braced fuel false t
    else balanced fuel '[' ']' 1 false t

/-- `"…"`, in which backquotes and dollars keep their meaning. -/
def double : (fuel : Nat) → (dollar : Bool) → Text → Enclosed
  | 0, _, _ => none
  | fuel + 1, dollar, t =>
    match dropJoins t with
    | [] => none
    | c :: rest =>
      if c = '"' then some ([c], rest)
      else if c = '\\' then
        match rest with
        | [] => none
        | d :: rest => prepend [c, d] (double fuel false rest)
      else if c = '`' then followed [c] (backquoted fuel rest) (double fuel false)
      else if dollar && opensBehindDollar c then
        followed [c] (dollarPart fuel c rest) (double fuel false)
      else prepend [c] (double fuel (c = '$' && !dollar) rest)

/-- `${…}`, which ends at the first brace that is neither quoted nor nested. -/
def braced : (fuel : Nat) → (dollar : Bool) → Text → Enclosed
  | 0, _, _ => none
  | fuel + 1, dollar, t =>
    match dropJoins t with
    | [] => none
    | c :: rest =>
      if c = '\x7d' then some ([c], rest)
      else if c = '\\' then
        match rest with
        | [] => none
        | d :: rest => prepend [c, d] (braced fuel false rest)
      else if c.isShellQuote then followed [c] (quote fuel dollar c rest) (braced fuel false)
      else if dollar && opensBehindDollar c then
        followed [c] (dollarPart fuel c rest) (braced fuel false)
      else prepend [c] (braced fuel (c = '$' && !dollar) rest)

/-- Brackets that nest, up to the one that closes the first; `depth` of them are open. -/
def balanced : (fuel : Nat) → (opening closing : CodePoint) → (depth : Nat) → (dollar : Bool) →
    Text → Enclosed
  | 0, _, _, _, _, _ => none
  | fuel + 1, opening, closing, depth, dollar, t =>
    match dropJoins t with
    | [] => none
    | c :: rest =>
      if c = closing ∧ depth = 1 then some ([c], rest)
      else if c = '\\' then
        match rest with
        | [] => none
        | d :: rest => prepend [c, d] (balanced fuel opening closing depth false rest)
      else if c.isShellQuote then
        followed [c] (quote fuel dollar c rest) (balanced fuel opening closing depth false)
      else
        let depth := if c = closing then depth - 1 else if c = opening then depth + 1 else depth
        prepend [c] (balanced fuel opening closing depth (c = '$' && !dollar) rest)

/-- `$(…)`; what was read comes back last first. -/
def substituted : (fuel : Nat) → Substitution → Text → Enclosed
  | 0, _, _ => none
  | fuel + 1, s, t =>
    match if s.comment then t else dropJoins t with
    | [] => none
    | c :: rest =>
      let s := if c = '\n' then s.atLineFeed else if c = ')' then s.atClosing else s
      if s.isInert then
        substituted fuel { s.push c with comment := s.comment && c ≠ '\n' } rest
      else
        let s := s.trackWord c
        let announced : Bool := match s.document with
          | .announced .. => true
          | _ => false
        if c.isShellBlank && !announced && s.letters = 0 then substituted fuel (s.push c) rest
        else
          let s := s.trackDelimiter c
          let next := (dropJoins rest).head?
          let doubled := next = some c ∧ (c = '&' ∨ c = '|' ∨ c = ';')
          if !s.keywordAllowed && doubled then
            substituted fuel { (s.push c).push c with keywordAllowed := true, letters := 0 }
              ((dropJoins rest).drop 1)
          else if !s.keywordAllowed && (c = '\n' || c = '&' || c = '|' || c = ';') then
            substituted fuel { s.push c with keywordAllowed := true, letters := 0 } rest
          else if s.keywordAllowed && 0x61 ≤ c.val && c.val ≤ 0x7A then
            substituted fuel { s.push c with letters := s.letters + 1 } rest
          else
            let s := if s.keywordAllowed then s.trackKeyword c else s
            if c = '<' && next = some '<' then
              let rest := (dropJoins rest).drop 1
              let s := (s.push c).push c
              match (dropJoins rest).head? with
              | none => none
              | some d =>
                if d = '-' then
                  substituted fuel { s.push d with document := .announced none none, stripTabs := true }
                    ((dropJoins rest).drop 1)
                else if d = '<' then substituted fuel s rest
                else substituted fuel { s with document := .announced none none } rest
            else
              let (s, c, rest) : Substitution × CodePoint × Text :=
                if c = '<' then
                  match dropJoins rest with
                  | [] => (s, c, rest)
                  | d :: rest => (s.push c, d, rest)
                else ({ s with comment := s.startsComment c }, c, rest)
              let s := (s.trackParens c).push c
              if s.depth = 0 then some (s.read, rest)
              else if c = '\\' then
                match rest with
                | [] => none
                | d :: rest => substituted fuel { s.push d with dollar := false } rest
              else if c.isShellQuote then
                (quote fuel s.dollar c rest).bind fun (read, rest) =>
                  substituted fuel { s with read := read.reverse ++ s.read, dollar := false } rest
              else if s.dollar && opensBehindDollar c then
                let depth := if c = '(' ∧ !s.inCase then s.depth - 1 else s.depth
                (dollarPart fuel c rest).bind fun (read, rest) =>
                  substituted fuel
                    { s with read := read.reverse ++ s.read, depth := depth, dollar := false } rest
              else substituted fuel { s with dollar := c = '$' && !s.dollar } rest

end

end Enclosure
end CommandWrap.Shell
