import CommandWrap.Text.Basic
import CommandWrap.Number.Binary64

/-!
The fewest decimal digits that read back as a given value. The decimals that round to
`m · 2 ^ e` form an interval around it, whose ends belong to it exactly when `m` is even. Grids of one,
two, up to seventeen digits are tried in turn: if a grid has a point in the interval, then so has one
of the two neighbours of the value on that grid.
-/
namespace CommandWrap.Binary64

/-- A value with the interval of what rounds to it, as numerators over one denominator. -/
structure Interval where
  low : Nat
  value : Nat
  high : Nat
  den : Nat
  closed : Bool

/-- Quarter units make room for the two half gaps; below a power of two the gap is half as wide. -/
def interval (m : Nat) (e : Int) : Interval :=
  let low := if m = Nat.pow 2 52 ∧ minExponent < e then 4 * m - 1 else 4 * m - 2
  let scale := Nat.pow 2 (e - 2).toNat
  ⟨low * scale, 4 * m * scale, (4 * m + 2) * scale, Nat.pow 2 (2 - e).toNat, m % 2 = 0⟩

namespace Interval

/-- `c · 10 ^ unit` lies in the interval. -/
def holds (i : Interval) (c : Nat) (unit : Int) : Bool :=
  let point := c * Nat.pow 10 unit.toNat * i.den
  let scale := Nat.pow 10 (-unit).toNat
  if i.closed then i.low * scale ≤ point && point ≤ i.high * scale
  else i.low * scale < point && point < i.high * scale

/-- The value in units of `10 ^ unit`, as a quotient. -/
def inUnits (i : Interval) (unit : Int) : Nat × Nat :=
  (i.value * Nat.pow 10 (-unit).toNat, i.den * Nat.pow 10 unit.toNat)

/-- How many digits stand before the decimal point; not positive when zeros follow it. -/
def point (i : Interval) : Int :=
  let fits (k : Int) : Bool := let (n, d) := i.inUnits k; n < d
  ((List.range 640).map fun j : Nat => (j : Int) - 325).find? fits |>.getD 0

/-- The better of the two neighbours of the value on the grid of `10 ^ unit`. -/
def neighbour? (i : Interval) (unit : Int) : Option Nat :=
  let (n, d) := i.inUnits unit
  let below := n / d
  match i.holds below unit, i.holds (below + 1) unit with
  | false, false => none
  | true, false => some below
  | false, true => some (below + 1)
  | true, true =>
    let r := n % d
    some (if 2 * r < d ∨ 2 * r = d ∧ below % 2 = 0 then below else below + 1)

end Interval

/-- The digits, without zeros behind, and the place of the decimal point among them. -/
def shortest (m : Nat) (e : Int) : Text × Int :=
  if m = 0 then ("0", 1)
  else
    let i := interval m e
    let p := i.point
    let hit := (List.range 17).findSome? fun n : Nat =>
      (i.neighbour? (p - (n + 1))).map fun c => (c, p - (n + 1))
    let (c, unit) := hit.getD (0, 0)
    let digits := Text.ofNat c
    let kept := (digits.reverse.dropWhile fun d : CodePoint => d = '0').reverse
    (kept, (digits.length : Int) + unit)

/-- How a finite value is laid out: the places of the decimal point that are written without an
exponent, and the least number of exponent digits. -/
structure Layout where
  minPoint : Int
  maxPoint : Int
  exponentDigits : Nat

/-- Digits with a decimal point, always one digit on either side of it. -/
def positional (digits : Text) (point : Int) : Text :=
  let zeros (n : Int) : Text := List.replicate n.toNat (CodePoint.ofChar '0')
  if point ≤ 0 then "0." ++ zeros (-point) ++ digits
  else if digits.length ≤ point then digits ++ zeros (point - digits.length) ++ ".0"
  else digits.take point.toNat ++ "." ++ digits.drop point.toNat

def scientific (layout : Layout) (digits : Text) (point : Int) : Text :=
  let exponent := point - 1
  let sign : CodePoint := if exponent < 0 then '-' else '+'
  let fraction : Text := if digits.length ≤ 1 then [] else '.' :: digits.drop 1
  digits.take 1 ++ fraction ++ "e" ++ [sign] ++ Text.padZeros layout.exponentDigits exponent.natAbs

def finiteText (layout : Layout) (negative : Bool) (m : Nat) (e : Int) : Text :=
  let (digits, point) := shortest m e
  let body := if layout.minPoint ≤ point ∧ point ≤ layout.maxPoint then positional digits point
    else scientific layout digits point
  if negative then '-' :: body else body

end CommandWrap.Binary64
