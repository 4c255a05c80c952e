/-!
Texts are finite sequences of Unicode code points. A lone surrogate is a code point too: an escape
in a JSON document can name one, so a command need not be a `String`.
-/
namespace CommandWrap

/-- A Unicode code point, a surrogate included. -/
structure CodePoint where
  val : Nat
  lt : val < 0x110000
deriving DecidableEq

abbrev Text := List CodePoint

namespace CodePoint

def ofChar (c : Char) : CodePoint :=
  ⟨c.toNat, by
    have h := c.valid
    simp only [UInt32.isValidChar, Nat.isValidChar] at h
    have e : c.toNat = c.val.toNat := rfl
    omega⟩

instance : Coe Char CodePoint := ⟨ofChar⟩

/-- `U+FFFD` stands in for a number that is no code point. -/
def ofNat (n : Nat) : CodePoint :=
  if h : n < 0x110000 then ⟨n, h⟩ else ⟨0xFFFD, by decide⟩

theorem ofNat_val (c : CodePoint) : ofNat c.val = c := by simp [ofNat, c.lt]

theorem val_ofNat {n : Nat} (h : n < 0x110000) : (ofNat n).val = n := by simp [ofNat, h]

def isHighSurrogate (c : CodePoint) : Bool := 0xD800 ≤ c.val && c.val ≤ 0xDBFF

def isLowSurrogate (c : CodePoint) : Bool := 0xDC00 ≤ c.val && c.val ≤ 0xDFFF

def isSurrogate (c : CodePoint) : Bool := 0xD800 ≤ c.val && c.val ≤ 0xDFFF

def isAscii (c : CodePoint) : Bool := c.val < 0x80

/-- One of the ten ASCII digits. -/
def isDigit (c : CodePoint) : Bool := 0x30 ≤ c.val && c.val ≤ 0x39

def digit (c : CodePoint) : Nat := c.val - 0x30

/-- Membership in a table of closed ranges. -/
def inRanges (table : List (Nat × Nat)) (c : CodePoint) : Bool :=
  table.any fun (lo, hi) => lo ≤ c.val && c.val ≤ hi

end CodePoint

namespace Text

def ofString (s : String) : Text := s.toList.map CodePoint.ofChar

instance : Coe String Text := ⟨ofString⟩

/-- The digits of a number in base ten. -/
def ofNat (n : Nat) : Text := (Nat.toDigits 10 n).map CodePoint.ofChar

def ofInt : Int → Text
  | .ofNat n => ofNat n
  | .negSucc n => '-' :: ofNat (n + 1)

/-- At least `width` digits, zeros in front. -/
def padZeros (width n : Nat) : Text :=
  let digits := ofNat n
  List.replicate (width - digits.length) (CodePoint.ofChar '0') ++ digits

/-- Spaces behind, up to `width` code points. -/
def padRight (width : Nat) (t : Text) : Text :=
  t ++ List.replicate (width - t.length) (CodePoint.ofChar ' ')

/-- The number that ASCII digits write. -/
def digitsValue (t : Text) : Nat := t.foldl (fun n c => 10 * n + c.digit) 0

def occursIn (part : Text) : Text → Bool
  | [] => part.isEmpty
  | c :: rest => part.isPrefixOf (c :: rest) || occursIn part rest

/-- The parts with `separator` between neighbours. -/
def join (separator : Text) (parts : List Text) : Text := separator.intercalate parts

def lines (parts : List Text) : Text := join "\n" parts

/-- The pieces between occurrences of `separator`, empty ones included. -/
def splitOn (separator : CodePoint) : Text → List Text
  | [] => [[]]
  | c :: rest =>
    if c = separator then [] :: splitOn separator rest
    else match splitOn separator rest with
      | [] => [[c]]
      | piece :: pieces => (c :: piece) :: pieces

/-- Code point order, a proper beginning first. -/
def lt : Text → Text → Bool
  | _, [] => false
  | [], _ :: _ => true
  | c :: s, d :: t => c.val < d.val || (c.val == d.val && lt s t)

/-- The text as a `String`; a lone surrogate becomes `U+FFFD`. -/
def toString (t : Text) : String :=
  String.ofList (t.map fun c => if c.isSurrogate then Char.ofNat 0xFFFD else Char.ofNat c.val)

end Text
end CommandWrap
