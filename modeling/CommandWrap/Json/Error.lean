import CommandWrap.Text.Basic

/-! Why a text is no JSON document, and how that is said. -/
namespace CommandWrap.Json

inductive SyntaxFlaw
  | expectingValue
  | expectingName
  | expectingColon
  | expectingComma
  | extraData
  | unterminatedString
  | controlCharacter
  | badEscape
  | badUnicodeEscape
  | byteOrderMark
deriving DecidableEq

inductive Container
  | array
  | object
deriving DecidableEq

inductive ParseError
  /-- The flaw stands `offset` code points into the text. -/
  | malformed (flaw : SyntaxFlaw) (offset line column : Nat)
  | integerTooLong (digits : Nat)
  | nestedTooDeep (innermost : Container)
deriving DecidableEq

/-- Integers are read up to this many digits. -/
def maxIntegerDigits : Nat := 4300

def SyntaxFlaw.message : SyntaxFlaw → Text
  | .expectingValue => "Expecting value"
  | .expectingName => "Expecting property name enclosed in double quotes"
  | .expectingColon => "Expecting ':' delimiter"
  | .expectingComma => "Expecting ',' delimiter"
  | .extraData => "Extra data"
  | .unterminatedString => "Unterminated string starting at"
  | .controlCharacter => "Invalid control character at"
  | .badEscape => "Invalid \\escape"
  | .badUnicodeEscape => "Invalid \\uXXXX escape"
  | .byteOrderMark => "Unexpected UTF-8 BOM (decode using utf-8-sig)"

def Container.name : Container → Text
  | .array => "array"
  | .object => "object"

def ParseError.message : ParseError → Text
  | .malformed flaw offset line column =>
    flaw.message ++ ": line " ++ Text.ofNat line ++ " column " ++ Text.ofNat column ++
      " (char " ++ Text.ofNat offset ++ ")"
  | .integerTooLong digits =>
    "Exceeds the limit (" ++ Text.ofNat maxIntegerDigits ++
      " digits) for integer string conversion: value has " ++ Text.ofNat digits ++
      " digits; use sys.set_int_max_str_digits() to increase the limit"
  | .nestedTooDeep innermost =>
    "maximum recursion depth exceeded while decoding a JSON " ++ innermost.name ++
      " from a unicode string"

/-- The flaw at `offset` in `text`, with its line and its column, both counted from one. -/
def ParseError.at (text : Text) (flaw : SyntaxFlaw) (offset : Nat) : ParseError :=
  let before := text.take offset
  let lineStart := before.reverse.takeWhile fun c : CodePoint => c ≠ '\n'
  .malformed flaw offset (before.count (CodePoint.ofChar '\n') + 1) (lineStart.length + 1)

end CommandWrap.Json
