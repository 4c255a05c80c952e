/-!
Binary floating point with 53 significant bits. Every value comes from rounding an exact quotient to
nearest, ties to even, so all arithmetic here is on natural numbers and integers.
-/
namespace CommandWrap

/-- Finite values are `± significand · 2 ^ exponent`. -/
inductive Binary64
  | finite (negative : Bool) (significand : Nat) (exponent : Int)
  | infinite (negative : Bool)
  | nan
deriving DecidableEq

namespace Binary64

/-- The least exponent, that of the smallest positive value. -/
def minExponent : Int := -1074

/-- The greatest exponent of a finite value. -/
def maxExponent : Int := 971

/-- The whole number nearest to `num / den`; of two, the even one. -/
def nearest (num den : Nat) : Nat :=
  let q := num / den
  let r := num % den
  if 2 * r < den ∨ 2 * r = den ∧ q % 2 = 0 then q else q + 1

/-- `num / den` in units of `2 ^ exponent`, as a quotient. -/
def inUnits (num den : Nat) (exponent : Int) : Nat × Nat :=
  match exponent with
  | .ofNat e => (num, den * Nat.pow 2 e)
  | .negSucc e => (num * Nat.pow 2 (e + 1), den)

/-- The exponent that leaves 53 bits before the binary point, or the least one. -/
def exponentFor (num den : Nat) : Int :=
  let low : Int := (num.log2 : Int) - den.log2 - 53
  let (n, d) := inUnits num den low
  max minExponent (if n / d < Nat.pow 2 53 then low else low + 1)

/-- The value nearest to `num / den`, for a positive `den`. -/
def ofQuotient (negative : Bool) (num den : Nat) : Binary64 :=
  if num = 0 then .finite negative 0 minExponent
  else
    let e := exponentFor num den
    let (n, d) := inUnits num den e
    let m := nearest n d
    let (m, e) := if m = Nat.pow 2 53 then (Nat.pow 2 52, e + 1) else (m, e)
    if maxExponent < e then .infinite negative else .finite negative m e

/-- The value nearest to `digits · 10 ^ exponent`. Powers far outside the range are not formed. -/
def ofDecimal (negative : Bool) (digits : Nat) (exponent : Int) : Binary64 :=
  let magnitude : Int := (Nat.toDigits 10 digits).length + exponent
  if digits = 0 ∨ magnitude < -400 then .finite negative 0 minExponent
  else if 400 < magnitude then .infinite negative
  else match exponent with
    | .ofNat e => ofQuotient negative (digits * Nat.pow 10 e) 1
    | .negSucc e => ofQuotient negative digits (Nat.pow 10 (e + 1))

end Binary64
end CommandWrap
