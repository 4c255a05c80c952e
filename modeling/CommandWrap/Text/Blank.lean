import CommandWrap.Text.Basic

/-!
Blank code points, and the words that they separate. A text is the blanks around its words and the
words themselves; `trim` cuts the outer blanks only.
-/
namespace CommandWrap

/-- White space and the separators among the control characters. -/
def CodePoint.isBlank (c : CodePoint) : Bool :=
  c.inRanges [(0x09, 0x0D), (0x1C, 0x20), (0x85, 0x85), (0xA0, 0xA0), (0x1680, 0x1680),
    (0x2000, 0x200A), (0x2028, 0x2029), (0x202F, 0x202F), (0x205F, 0x205F), (0x3000, 0x3000)]

namespace Text

def isBlank (t : Text) : Bool := t.all CodePoint.isBlank

def trimLeft (t : Text) : Text := t.dropWhile CodePoint.isBlank

def trimRight (t : Text) : Text := (trimLeft t.reverse).reverse

def trim (t : Text) : Text := trimRight (trimLeft t)

/-- The maximal runs without a blank, in order. -/
def words : Text → List Text
  | [] => []
  | c :: rest =>
    if c.isBlank then words rest
    else match rest, words rest with
      | [], _ => [[c]]
      | d :: _, tail =>
        if d.isBlank then [c] :: tail
        else match tail with
          | [] => [[c]]
          | word :: more => (c :: word) :: more

/-- The first word, empty for a blank text. -/
def head (t : Text) : Text := (trimLeft t).takeWhile fun c => !c.isBlank

end Text
end CommandWrap
