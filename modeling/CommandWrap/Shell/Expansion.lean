import CommandWrap.Shell.Tree

/-!
The parts of a word that stand for something else. Parts are looked for in the word as written. Single
quotes hide nothing unless one stands at either end of the word.
-/
namespace CommandWrap.Shell.Expansion

/-- How commands inside a word are read. -/
structure Nested where
  /-- The command behind an opening parenthesis, and the text behind it. -/
  parenthesised : Text → Option (Tree × Text)
  /-- The command between backquotes. -/
  backquoted : Text → Option Tree

/-- What follows a part. -/
def followed (part : Tree) (rest : Option (List Tree)) : Option (List Tree) := rest.map (part :: ·)

/-- The parts in the rest of a word; `quoted` words start with a double quote. -/
def parts (nested : Nested) (quoted : Bool) : (fuel : Nat) → Text → Option (List Tree)
  | 0, _ => some []
  | _ + 1, [] => some []
  | fuel + 1, c :: rest =>
    let inParens (kind : Text) (t : Text) : Option (List Tree) :=
      (nested.parenthesised t).bind fun (command, behind) =>
        followed (.of kind [command]) (parts nested quoted fuel (behind.drop 1))
    if (c = '<' ∨ c = '>') ∧ rest.head? = some '(' ∧ !quoted then
      inParens "processsubstitution" (rest.drop 1)
    else if c = '$' then
      match rest with
      | [] => some []
      | d :: rest =>
        if d = '(' then
          if rest.head? = some '(' then none else inParens "commandsubstitution" rest
        else if d = '[' then none
        else if d = '\x7b' then
          let behind := rest.dropWhile fun c : CodePoint => c ≠ '\x7d'
          if behind = [] then none
          else followed (.of "parameter" []) (parts nested quoted fuel (behind.drop 1))
        else followed (.of "parameter" []) (parts nested quoted fuel rest)
    else if c = '`' then
      if rest.head? = some '`' then parts nested quoted fuel (rest.drop 1)
      else
        let behind := rest.dropWhile fun c : CodePoint => c ≠ '`'
        if behind = [] then none
        else
          (nested.backquoted (rest.takeWhile fun c : CodePoint => c ≠ '`')).bind fun command =>
            followed (.of "commandsubstitution" [command])
              (parts nested quoted fuel (behind.drop 1))
    else if c = '\\' then parts nested quoted fuel (rest.drop 1)
    else parts nested quoted fuel rest

/-- A sign that ends the name behind a tilde. -/
def endsTilde (c : CodePoint) : Bool := c = '/' || c = '\\' || c = '\'' || c = '"'

/-- The parts of a word; none if one of them cannot be read. -/
def ofWord? (nested : Nested) (word : Text) : Option (List Tree) :=
  if word.head? = some '\'' ∧ word.getLast? = some '\'' then some []
  else if word.head? = some '~' then
    let behind := word.dropWhile fun c => !endsTilde c
    followed (.of "tilde" []) (parts nested false (behind.length + 1) behind)
  else parts nested (word.head? = some '"') (word.length + 1) word

end CommandWrap.Shell.Expansion
