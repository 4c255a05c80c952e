import CommandWrap.Text.Basic

/-! Line ends: how a file's text is read, and where a text is cut into lines. -/
namespace CommandWrap

/-- The code points that end a line. -/
def CodePoint.isLineEnd (c : CodePoint) : Bool :=
  c.inRanges [(0x0A, 0x0D), (0x1C, 0x1E), (0x85, 0x85), (0x2028, 0x2029)]

namespace Text

/-- A carriage return, with the line feed after it if there is one, is read as a line feed. -/
def unifyLineEnds : Text → Text
  | [] => []
  | c :: rest =>
    if c = '\r' then
      if rest.head? = some '\n' then unifyLineEnds rest else '\n' :: unifyLineEnds rest
    else c :: unifyLineEnds rest

/-- The lines of a text whose line ends are unified. A text that ends in a line end has no further,
empty line. -/
def splitLines : Text → List Text
  | [] => []
  | c :: rest =>
    if c.isLineEnd then [] :: splitLines rest
    else match splitLines rest with
      | [] => [[c]]
      | line :: more => (c :: line) :: more

end Text
end CommandWrap
