import CommandWrap.Json.Basic
import CommandWrap.Number.Shortest
import CommandWrap.Text.Quoted

/-!
The one written form of a JSON value: on one line, in ASCII, with a space behind every comma and
colon. Numbers with a fraction or an exponent are written with the fewest digits that read back.
-/
namespace CommandWrap.Json

/-- Decimal points down to three zeros behind the point and up to sixteen digits before it are
written out; exponents have two digits or more. -/
def numberLayout : Binary64.Layout := ⟨-3, 16, 2⟩

def unicodeEscape (n : Nat) : Text := '\\' :: 'u' :: Text.hex 4 n

/-- What is no visible sign of ASCII has an escape; beyond the basic plane, those of a surrogate
pair. -/
def escaped (c : CodePoint) : Text :=
  if c = '"' then "\\\""
  else if c = '\\' then "\\\\"
  else if c = '\n' then "\\n"
  else if c = '\r' then "\\r"
  else if c = '\t' then "\\t"
  else if c = '\x08' then "\\b"
  else if c = '\x0C' then "\\f"
  else if 0x20 ≤ c.val ∧ c.val < 0x7F then [c]
  else if c.val < 0x10000 then unicodeEscape c.val
  else
    let n := c.val - 0x10000
    unicodeEscape (0xD800 + n / 0x400) ++ unicodeEscape (0xDC00 + n % 0x400)

def stringText (t : Text) : Text := "\"" ++ t.flatMap escaped ++ "\""

def floatText : Binary64 → Text
  | .finite negative m e => Binary64.finiteText numberLayout negative m e
  | .infinite false => "Infinity"
  | .infinite true => "-Infinity"
  | .nan => "NaN"

mutual

def render : Json → Text
  | .null => "null"
  | .bool true => "true"
  | .bool false => "false"
  | .int n => Text.ofInt n
  | .float x => floatText x
  | .string t => stringText t
  | .array items => "[" ++ renderItems items ++ "]"
  | .object members => "\x7b" ++ renderMembers members ++ "\x7d"

def renderItems : List Json → Text
  | [] => []
  | [item] => render item
  | item :: more => render item ++ ", " ++ renderItems more

def renderMembers : List (Text × Json) → Text
  | [] => []
  | [(name, value)] => stringText name ++ ": " ++ render value
  | (name, value) :: more => stringText name ++ ": " ++ render value ++ ", " ++ renderMembers more

end

end CommandWrap.Json
