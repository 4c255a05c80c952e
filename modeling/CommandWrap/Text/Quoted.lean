import CommandWrap.Text.Printable

/-!
Quoted texts for diagnostics: between quotes, on one line, with an escape for whatever does not show
as itself.
-/
namespace CommandWrap

/-- `width` lower-case hexadecimal digits. -/
def Text.hex : (width : Nat) → Nat → Text
  | 0, _ => []
  | width + 1, n => Text.hex width (n / 16) ++ [CodePoint.ofChar (Nat.digitChar (n % 16))]

namespace Text

/-- The shortest numeric escape that holds the code point. -/
def numericEscape (c : CodePoint) : Text :=
  if c.val ≤ 0xFF then '\\' :: 'x' :: hex 2 c.val
  else if c.val ≤ 0xFFFF then '\\' :: 'u' :: hex 4 c.val
  else '\\' :: 'U' :: hex 8 c.val

def quotedCodePoint (quote c : CodePoint) : Text :=
  if c = quote ∨ c = '\\' then ['\\', c]
  else if c = '\n' then "\\n"
  else if c = '\r' then "\\r"
  else if c = '\t' then "\\t"
  else if c.isPrintable then [c]
  else numericEscape c

/-- Double quotes serve a text that holds a single quote and no double one. -/
def quoteFor (t : Text) : CodePoint :=
  if t.contains '\'' && !t.contains '"' then '"' else '\''

def quoted (t : Text) : Text :=
  quoteFor t :: t.flatMap (quotedCodePoint (quoteFor t)) ++ [quoteFor t]

end Text
end CommandWrap
