import CommandWrap.Json.Basic
import CommandWrap.Json.Error

/-!
Reading JSON documents. Beyond the standard, `NaN`, `Infinity` and `-Infinity` are values and an
escape may name a lone surrogate. The first flaw from the left is reported.
-/
namespace CommandWrap.Json

/-- A failure says how much of the text was left where the flaw stands. -/
inductive Failure
  | malformed (flaw : SyntaxFlaw) (remaining : Nat)
  | integerTooLong (digits : Nat)
  | nestedTooDeep (innermost : Container)

/-- What was read, and the text behind it. -/
abbrev Reading (α : Type) := Except Failure (α × Text)

def fail {α : Type} (flaw : SyntaxFlaw) (here : Text) : Reading α :=
  .error (.malformed flaw here.length)

def isBlank (c : CodePoint) : Bool := c = ' ' || c = '\t' || c = '\n' || c = '\r'

def skipBlanks (t : Text) : Text := t.dropWhile isBlank

/-! ### Strings -/

def hexDigit? (c : CodePoint) : Option Nat :=
  if c.isDigit then some (c.val - 0x30)
  else if 0x41 ≤ c.val ∧ c.val ≤ 0x46 then some (c.val - 0x37)
  else if 0x61 ≤ c.val ∧ c.val ≤ 0x66 then some (c.val - 0x57)
  else none

/-- The code point that four hexadecimal digits name. -/
def hex4? (a b c d : CodePoint) : Option CodePoint := do
  return .ofNat ((← hexDigit? a) * 4096 + (← hexDigit? b) * 256 + (← hexDigit? c) * 16 +
    (← hexDigit? d))

/-- What a one-letter escape stands for. -/
def shortEscape? (c : CodePoint) : Option CodePoint :=
  if c = '"' ∨ c = '\\' ∨ c = '/' then some c
  else if c = 'b' then some '\x08'
  else if c = 'f' then some '\x0C'
  else if c = 'n' then some '\n'
  else if c = 'r' then some '\r'
  else if c = 't' then some '\t'
  else none

/-- A code point of a string, as itself or by a numeric escape. -/
inductive Unit
  | plain (c : CodePoint)
  | escaped (c : CodePoint)

/-- The code point outside the basic plane that a pair of surrogates stands for. -/
def joinSurrogates (high low : CodePoint) : CodePoint :=
  .ofNat (0x10000 + (high.val - 0xD800) * 0x400 + (low.val - 0xDC00))

/-- Two neighbouring escapes that form a surrogate pair are one code point. -/
def joinUnits : List Unit → Text
  | [] => []
  | .plain c :: rest => c :: joinUnits rest
  | .escaped high :: .escaped low :: rest =>
    if high.isHighSurrogate && low.isLowSurrogate then joinSurrogates high low :: joinUnits rest
    else high :: joinUnits (.escaped low :: rest)
  | .escaped c :: rest => c :: joinUnits rest

/-- The rest of a string whose opening quote stands at `opening`; `read` holds what was read, last
first. A numeric escape needs one more code point behind it. -/
def stringRest (opening : Text) (read : List Unit) : Text → Reading Text
  | [] => fail .unterminatedString opening
  | c :: rest =>
    if c = '"' then .ok (joinUnits read.reverse, rest)
    else if c = '\\' then
      match rest with
      | [] => fail .unterminatedString opening
      | e :: behind =>
        if e = 'u' then
          match behind with
          | a :: b :: c :: d :: next :: more =>
            match hex4? a b c d with
            | some unit => stringRest opening (.escaped unit :: read) (next :: more)
            | none => fail .badUnicodeEscape rest
          | _ => fail .badUnicodeEscape rest
        else match shortEscape? e with
          | some d => stringRest opening (.plain d :: read) behind
          | none => fail .badEscape (c :: rest)
    else if c.val < 0x20 then fail .controlCharacter (c :: rest)
    else stringRest opening (.plain c :: read) rest

/-! ### Numbers -/

/-- The digits behind a decimal point, if there are any. -/
def fraction? : Text → Option (Text × Text)
  | point :: rest =>
    let digits := rest.takeWhile CodePoint.isDigit
    if point = '.' ∧ digits ≠ [] then some (digits, rest.drop digits.length) else none
  | [] => none

/-- The power of ten behind an `e`, if there are digits. -/
def exponent? : Text → Option (Int × Text)
  | [] => none
  | e :: rest =>
    let (negative, rest) : Bool × Text := match rest with
      | [] => (false, [])
      | sign :: more =>
        if sign = '-' then (true, more) else if sign = '+' then (false, more) else (false, rest)
    let digits := rest.takeWhile CodePoint.isDigit
    if (e = 'e' ∨ e = 'E') ∧ digits ≠ [] then
      let n : Int := Text.digitsValue digits
      some (if negative then -n else n, rest.drop digits.length)
    else none

/-- The digits of a whole number; a zero in front stands alone. -/
def wholeDigits : Text → Text
  | [] => []
  | c :: rest =>
    if c = '0' then [c] else if c.isDigit then c :: rest.takeWhile CodePoint.isDigit else []

def number (here : Text) : Reading Json :=
  let (negative, body) : Bool × Text := match here with
    | [] => (false, [])
    | sign :: rest => if sign = '-' then (true, rest) else (false, here)
  let whole := wholeDigits body
  let rest := body.drop whole.length
  if whole = [] then fail .expectingValue here
  else
    let (decimals, rest, point) := match fraction? rest with
      | some (digits, rest) => (digits, rest, true)
      | none => ([], rest, false)
    match exponent? rest, point with
    | none, false =>
      if maxIntegerDigits < whole.length then .error (.integerTooLong whole.length)
      else
        let n : Int := Text.digitsValue whole
        .ok (.int (if negative then -n else n), rest)
    | exponent, _ =>
      let (power, rest) := exponent.getD (0, rest)
      let digits := Text.digitsValue (whole ++ decimals)
      .ok (.float (.ofDecimal negative digits (power - decimals.length)), rest)

/-- The values that are written as fixed words. -/
def wordValues : List (Text × Json) :=
  [("null", .null), ("true", .bool true), ("false", .bool false), ("NaN", .float .nan),
    ("Infinity", .float (.infinite false)), ("-Infinity", .float (.infinite true))]

def scalar (here : Text) : Reading Json :=
  match wordValues.find? fun (word, _) => word.isPrefixOf here with
  | some (word, value) => .ok (value, here.drop word.length)
  | none => number here

/-! ### Arrays and objects -/

/-- What follows the sign `c`, which has to stand here. -/
def after (c : CodePoint) (flaw : SyntaxFlaw) (here : Text) : Except Failure Text :=
  match here with
  | [] => .error (.malformed flaw 0)
  | d :: rest => if d = c then .ok rest else .error (.malformed flaw here.length)

/-- One or more values with commas between them, up to the closing bracket. `fuel` bounds their
number; the length of the text is always enough. -/
def items (element : Text → Reading Json) : (fuel : Nat) → Text → Reading (List Json)
  | 0, here => fail .expectingValue here
  | fuel + 1, here =>
    (element here).bind fun (item, rest) =>
      let here := skipBlanks rest
      if here.head? = some ']' then .ok ([item], here.drop 1)
      else (after ',' .expectingComma here).bind fun rest =>
        (items element fuel (skipBlanks rest)).map fun (more, rest) => (item :: more, rest)

/-- One or more members with commas between them, up to the closing brace. -/
def members (element : Text → Reading Json) : (fuel : Nat) → Text → Reading (List (Text × Json))
  | 0, here => fail .expectingName here
  | fuel + 1, here =>
    (after '"' .expectingName here).bind fun rest =>
    (stringRest here [] rest).bind fun (name, rest) =>
    (after ':' .expectingColon (skipBlanks rest)).bind fun rest =>
    (element (skipBlanks rest)).bind fun (value, rest) =>
      let here := skipBlanks rest
      if here.head? = some '\x7d' then .ok ([(name, value)], here.drop 1)
      else (after ',' .expectingComma here).bind fun rest =>
        (members element fuel (skipBlanks rest)).map fun (more, rest) =>
          ((name, value) :: more, rest)

def arrayRest (element : Text → Reading Json) (rest : Text) : Reading Json :=
  let here := skipBlanks rest
  if here.head? = some ']' then .ok (.array [], here.drop 1)
  else (items element (here.length + 1) here).map fun (values, rest) => (.array values, rest)

/-- A name that comes twice keeps its first place and its last value. -/
def objectRest (element : Text → Reading Json) (rest : Text) : Reading Json :=
  let here := skipBlanks rest
  if here.head? = some '\x7d' then .ok (.object [], here.drop 1)
  else (members element (here.length + 1) here).map fun (pairs, rest) =>
    (.object (Entries.ofList pairs), rest)

/-- A value, whose own values `inside` reads; there is no `inside` at the nesting limit. -/
def valueOver (inside : Option (Text → Reading Json)) (here : Text) : Reading Json :=
  match here with
  | [] => fail .expectingValue here
  | c :: rest =>
    if c = '"' then (stringRest here [] rest).map fun (t, rest) => (.string t, rest)
    else if c = '[' then
      match inside with
      | some element => arrayRest element rest
      | none => .error (.nestedTooDeep .array)
    else if c = '\x7b' then
      match inside with
      | some element => objectRest element rest
      | none => .error (.nestedTooDeep .object)
    else scalar here

/-- A value with at most `depth` levels of arrays and objects. -/
def value : (depth : Nat) → Text → Reading Json
  | 0 => valueOver none
  | depth + 1 => valueOver (some (value depth))

/-! ### Documents -/

/-- Documents are read down to so many levels. How many depends on what the reader is called from, but
they are plenty. -/
structure Limit where
  levels : Nat := 990
  plenty : 400 ≤ levels := by decide

def document (depth : Nat) (text : Text) : Except Failure Json :=
  if text.head? = some ⟨0xFEFF, by decide⟩ then
    .error (.malformed .byteOrderMark text.length)
  else (value depth (skipBlanks text)).bind fun (v, rest) =>
    let rest := skipBlanks rest
    if rest = [] then .ok v else .error (.malformed .extraData rest.length)

def Failure.toError (text : Text) : Failure → ParseError
  | .malformed flaw remaining => .at text flaw (text.length - remaining)
  | .integerTooLong digits => .integerTooLong digits
  | .nestedTooDeep innermost => .nestedTooDeep innermost

/-- The value that a text writes, with at most `depth` levels. -/
def parseWithin (depth : Nat) (text : Text) : Except ParseError Json :=
  (document depth text).mapError (·.toError text)

def parse (limit : Limit) (text : Text) : Except ParseError Json := parseWithin limit.levels text

end CommandWrap.Json
