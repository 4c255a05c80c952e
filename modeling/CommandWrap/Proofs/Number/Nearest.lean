import Mathlib
import CommandWrap.Number.Binary64

/-! Rounding to nearest: of all values of 53 bits, whatever their exponent, the one made of a quotient is the
nearest to it, and the even one of two that are equally near. -/
namespace CommandWrap.Binary64

variable {num den : ℕ} {x : ℚ} {significand : ℕ} {exponent : ℤ}

/-! ### Whole numbers -/

/-- The part of a quotient behind its whole number decides where it is rounded. -/
lemma nearest_cases (num : ℕ) (hden : 0 < den) :
    ∃ rest : ℚ, (num : ℚ) / den = (num / den : ℕ) + rest ∧ 0 ≤ rest ∧ rest < 1 ∧
      (nearest num den = num / den ∧ (2 * rest < 1 ∨ 2 * rest = 1 ∧ Even (num / den)) ∨
        nearest num den = num / den + 1 ∧ (1 < 2 * rest ∨ 2 * rest = 1 ∧ Even (num / den + 1))) := by
  have hpos : (0 : ℚ) < den := by exact_mod_cast hden
  have hrest : ((num % den : ℕ) : ℚ) < den := by exact_mod_cast Nat.mod_lt num hden
  have hnum : (num : ℚ) = den * (num / den : ℕ) + (num % den : ℕ) := by
    exact_mod_cast (Nat.div_add_mod num den).symm
  refine ⟨(num % den : ℕ) / den, ?_, by positivity, (div_lt_one hpos).mpr hrest, ?_⟩
  · field_simp
    exact hnum
  have hhalf : ∀ r : ℕ, 2 * ((r : ℚ) / den) = ((2 * r : ℕ) : ℚ) / den := by
    intro r
    push_cast
    ring
  rw [hhalf, div_lt_one hpos, one_lt_div hpos, div_eq_one_iff_eq hpos.ne', Nat.cast_lt, Nat.cast_lt,
    Nat.cast_inj]
  simp only [nearest, Nat.even_iff]
  split_ifs with hdown
  · exact .inl ⟨rfl, hdown⟩
  · right
    omega

lemma abs_sub_add_cases {rest : ℚ} (hlow : 0 ≤ rest) (hhigh : rest < 1) (whole k : ℕ) :
    (k : ℚ) ≤ whole ∧ |(k : ℚ) - (whole + rest)| = whole - k + rest ∨
      (whole : ℚ) + 1 ≤ k ∧ |(k : ℚ) - (whole + rest)| = k - whole - rest := by
  rcases le_or_gt k whole with hk | hk
  · have hcast : (k : ℚ) ≤ whole := by exact_mod_cast hk
    refine .inl ⟨hcast, ?_⟩
    rw [abs_of_nonpos (by linarith)]
    ring
  · have hcast : (whole : ℚ) + 1 ≤ k := by exact_mod_cast hk
    refine .inr ⟨hcast, ?_⟩
    rw [abs_of_nonneg (by linarith)]
    ring

/-- No whole number is nearer, and one that is as near is even unless it is the only one. -/
lemma abs_nearest_sub_le (num : ℕ) (hden : 0 < den) (k : ℕ) :
    |(nearest num den : ℚ) - num / den| ≤ |(k : ℚ) - num / den| ∧
      (|(k : ℚ) - num / den| = |(nearest num den : ℚ) - num / den| →
        k = nearest num den ∨ Even (nearest num den)) := by
  obtain ⟨rest, hquotient, hlow, hhigh, hcases⟩ := nearest_cases num hden
  rw [hquotient]
  have hother := abs_sub_add_cases hlow hhigh (num / den) k
  rcases hcases with ⟨hdown, hrest⟩ | ⟨hup, hrest⟩
  · have hdistance : |(nearest num den : ℚ) - ((num / den : ℕ) + rest)| = rest := by
      rw [hdown, sub_add_cancel_left, abs_neg, abs_of_nonneg hlow]
    have hhalf : 2 * rest ≤ 1 := by
      rcases hrest with hless | ⟨heq, -⟩ <;> linarith
    rw [hdistance, hdown]
    rcases hother with ⟨hk, hdistance⟩ | ⟨hk, hdistance⟩
    · refine ⟨by linarith, fun htie => .inl ?_⟩
      have hsame : (k : ℚ) = (num / den : ℕ) := by linarith
      exact_mod_cast hsame
    · refine ⟨by linarith, fun htie => .inr ?_⟩
      rcases hrest with hless | ⟨-, heven⟩
      · linarith
      · exact heven
  · have hdistance : |(nearest num den : ℚ) - ((num / den : ℕ) + rest)| = 1 - rest := by
      rw [hup, Nat.cast_succ, add_sub_add_left_eq_sub, abs_of_pos (by linarith)]
    have hhalf : 1 ≤ 2 * rest := by
      rcases hrest with hmore | ⟨heq, -⟩ <;> linarith
    rw [hdistance, hup]
    rcases hother with ⟨hk, hdistance⟩ | ⟨hk, hdistance⟩
    · refine ⟨by linarith, fun htie => .inr ?_⟩
      rcases hrest with hmore | ⟨-, heven⟩
      · linarith
      · exact heven
    · refine ⟨by linarith, fun htie => .inl ?_⟩
      have hsame : (k : ℚ) = (num / den : ℕ) + 1 := by linarith
      exact_mod_cast hsame

lemma nearest_mem {low high : ℕ} (hden : 0 < den) (hlow : (low : ℚ) ≤ num / den)
    (hhigh : (num : ℚ) / den < high) : low ≤ nearest num den ∧ nearest num den ≤ high := by
  have hpos : (0 : ℚ) < den := by exact_mod_cast hden
  rw [le_div_iff₀ hpos] at hlow
  rw [div_lt_iff₀ hpos] at hhigh
  have hlow' : low ≤ num / den := (Nat.le_div_iff_mul_le hden).mpr (by exact_mod_cast hlow)
  have hhigh' : num / den < high := (Nat.div_lt_iff_lt_mul hden).mpr (by exact_mod_cast hhigh)
  simp only [nearest]
  split_ifs <;> omega

/-! ### Units -/

lemma inUnits_pos (num : ℕ) (hden : 0 < den) (e : ℤ) : 0 < (inUnits num den e).2 := by
  cases e with
  | ofNat e => exact Nat.mul_pos hden (Nat.two_pow_pos e)
  | negSucc e => exact hden

lemma inUnits_div (num den : ℕ) (e : ℤ) :
    ((inUnits num den e).1 : ℚ) / (inUnits num den e).2 = num / den / 2 ^ e := by
  cases e with
  | ofNat e =>
    simp only [inUnits, Nat.pow_eq, Int.ofNat_eq_natCast, zpow_natCast, Nat.cast_mul, Nat.cast_pow,
      Nat.cast_ofNat]
    exact (div_div _ _ _).symm
  | negSucc e =>
    simp only [inUnits, Nat.pow_eq, zpow_negSucc, Nat.cast_mul, Nat.cast_pow, Nat.cast_ofNat, div_inv_eq_mul]
    ring

lemma log2_bounds {n : ℕ} (hn : n ≠ 0) :
    (2 : ℚ) ^ (n.log2 : ℤ) ≤ n ∧ (n : ℚ) < 2 ^ ((n.log2 : ℤ) + 1) := by
  constructor
  · rw [zpow_natCast]
    exact_mod_cast Nat.log2_self_le hn
  · rw [← Nat.cast_succ, zpow_natCast]
    exact_mod_cast Nat.lt_log2_self

/-- Either way, a quotient in these units has 53 or 54 bits in front of the point. -/
lemma quotient_bounds (hnum : num ≠ 0) (hden : 0 < den) {low : ℤ} (hlow : low = num.log2 - den.log2 - 53) :
    2 ^ 52 ≤ (num : ℚ) / den / 2 ^ low ∧ (num : ℚ) / den / 2 ^ low < 2 ^ 54 := by
  have hpos : (0 : ℚ) < den := by exact_mod_cast hden
  have hunit : (0 : ℚ) < 2 ^ low := by positivity
  obtain ⟨hnum, hnum'⟩ := log2_bounds hnum
  obtain ⟨hden, hden'⟩ := log2_bounds hden.ne'
  constructor
  · rw [le_div_iff₀ hunit, le_div_iff₀ hpos]
    calc (2 : ℚ) ^ 52 * 2 ^ low * den ≤ 2 ^ 52 * 2 ^ low * 2 ^ ((den.log2 : ℤ) + 1) := by gcongr
      _ = 2 ^ (num.log2 : ℤ) := by
        rw [← zpow_natCast, ← zpow_add₀ two_ne_zero, ← zpow_add₀ two_ne_zero]
        congr 1
        omega
      _ ≤ num := hnum
  · rw [div_lt_iff₀ hunit, div_lt_iff₀ hpos]
    calc (num : ℚ) < 2 ^ ((num.log2 : ℤ) + 1) := hnum'
      _ = 2 ^ 54 * 2 ^ low * 2 ^ (den.log2 : ℤ) := by
        rw [← zpow_natCast, ← zpow_add₀ two_ne_zero, ← zpow_add₀ two_ne_zero]
        congr 1
        omega
      _ ≤ 2 ^ 54 * 2 ^ low * den := by gcongr

/-- The unit in which a quotient has 53 bits in front of the point. -/
lemma exponentFor_spec (hnum : num ≠ 0) (hden : 0 < den) (hlow : (den.log2 : ℤ) ≤ num.log2 + 1021) :
    2 ^ 52 ≤ (num : ℚ) / den / 2 ^ exponentFor num den ∧
      (num : ℚ) / den / 2 ^ exponentFor num den < 2 ^ 53 ∧
      exponentFor num den ≤ (num.log2 : ℤ) - den.log2 - 52 := by
  obtain ⟨low, hunit⟩ : ∃ low : ℤ, low = num.log2 - den.log2 - 53 := ⟨_, rfl⟩
  obtain ⟨hmin, hmax⟩ := quotient_bounds hnum hden hunit
  have hexponent : exponentFor num den =
      if (inUnits num den low).1 / (inUnits num den low).2 < 2 ^ 53 then low else low + 1 := by
    rw [exponentFor, ← hunit]
    apply max_eq_right
    rw [minExponent]
    split_ifs <;> omega
  have hwhole : (inUnits num den low).1 / (inUnits num den low).2 < 2 ^ 53 ↔
      (num : ℚ) / den / 2 ^ low < 2 ^ 53 := by
    have hpos := inUnits_pos num hden low
    rw [← inUnits_div, div_lt_iff₀ (by exact_mod_cast hpos), Nat.div_lt_iff_lt_mul hpos]
    norm_cast
  rw [hexponent]
  split_ifs with hless
  · refine ⟨hmin, hwhole.mp hless, ?_⟩
    omega
  · have hmore := not_lt.mp (mt hwhole.mpr hless)
    rw [zpow_add_one₀ two_ne_zero, ← div_div]
    refine ⟨?_, ?_, ?_⟩
    · linarith
    · linarith
    · omega

/-! ### Quotients -/

/-- `significand · 2 ^ exponent` is nearest to `x` of all values of 53 bits, and even if another one is as near. -/
structure IsNearest (x : ℚ) (significand : ℕ) (exponent : ℤ) : Prop where
  normal : 2 ^ 52 ≤ significand ∧ significand < 2 ^ 53
  nearest : ∀ (other : ℕ) (e : ℤ), other < 2 ^ 53 →
    |(significand : ℚ) * 2 ^ exponent - x| ≤ |(other : ℚ) * 2 ^ e - x|
  even : ∀ (other : ℕ) (e : ℤ), other < 2 ^ 53 →
    |(other : ℚ) * 2 ^ e - x| = |(significand : ℚ) * 2 ^ exponent - x| →
      (other : ℚ) * 2 ^ e = significand * 2 ^ exponent ∨ Even significand

namespace IsNearest

variable {bound : ℕ}

/-- Rounding stays above every value of 53 bits that is below. -/
lemma le_of_le (h : IsNearest x significand exponent) (hbound : bound < 2 ^ 53) (e : ℤ)
    (hle : (bound : ℚ) * 2 ^ e ≤ x) : (bound : ℚ) * 2 ^ e ≤ significand * 2 ^ exponent := by
  by_contra! hless
  have hnearest := h.nearest bound e hbound
  rw [abs_of_nonpos (by linarith), abs_of_nonpos (by linarith)] at hnearest
  linarith

/-- Rounding stays below every value of 53 bits that is above. -/
lemma ge_of_ge (h : IsNearest x significand exponent) (hbound : bound < 2 ^ 53) (e : ℤ)
    (hge : x ≤ (bound : ℚ) * 2 ^ e) : (significand : ℚ) * 2 ^ exponent ≤ bound * 2 ^ e := by
  by_contra! hmore
  have hnearest := h.nearest bound e hbound
  rw [abs_of_nonneg (by linarith), abs_of_nonneg (by linarith)] at hnearest
  linarith

/-- Rounding does not reach a limit if there is a value of 53 bits that is nearer. -/
lemma lt_of_nearer (h : IsNearest x significand exponent) (hbound : bound < 2 ^ 53) (e : ℤ) {limit : ℚ}
    (hlimit : (bound : ℚ) * 2 ^ e < limit) (hnearer : 2 * x < bound * 2 ^ e + limit) :
    (significand : ℚ) * 2 ^ exponent < limit := by
  by_contra! hmore
  have hnearest := h.nearest bound e hbound
  have hless : |(bound : ℚ) * 2 ^ e - x| < limit - x := by
    apply abs_lt.mpr
    constructor
    · linarith
    · linarith
  rw [abs_of_nonneg (by linarith)] at hnearest
  linarith

end IsNearest

/-- A value of 53 bits in another unit is a whole number of the given units, or less than `2 ^ 52` of them. -/
lemma inUnits_cases {other : ℕ} (hother : other < 2 ^ 53) (e unit : ℤ) :
    (∃ k : ℕ, (other : ℚ) * 2 ^ e = k * 2 ^ unit) ∨ (other : ℚ) * 2 ^ e < 2 ^ 52 * 2 ^ unit := by
  rcases le_or_gt unit e with he | he
  · obtain ⟨shift, rfl⟩ := Int.le.dest he
    refine .inl ⟨other * 2 ^ shift, ?_⟩
    rw [zpow_add₀ two_ne_zero, zpow_natCast]
    push_cast
    ring
  · right
    have hother' : (other : ℚ) < 2 ^ 53 := by exact_mod_cast hother
    have hunit : (2 : ℚ) ^ e ≤ 2 ^ (unit - 1) := zpow_le_zpow_right₀ one_le_two (by omega)
    have hpos : (0 : ℚ) < 2 ^ e := by positivity
    calc (other : ℚ) * 2 ^ e < 2 ^ 53 * 2 ^ e := by gcongr
      _ ≤ 2 ^ 53 * 2 ^ (unit - 1) := by gcongr
      _ = 2 ^ 52 * 2 ^ unit := by
        rw [zpow_sub_one₀ two_ne_zero]
        ring

lemma abs_mul_unit_sub (a y : ℚ) (unit : ℤ) : |a * 2 ^ unit - y * 2 ^ unit| = |a - y| * 2 ^ unit := by
  have hunit : (0 : ℚ) < 2 ^ unit := by positivity
  rw [← sub_mul, abs_mul, abs_of_pos hunit]

/-- Rounded in the unit in which it has 53 bits in front of the point, a quotient becomes the nearest value. -/
lemma nearest_mul_unit {n d : ℕ} (hd : 0 < d) (hlow : 2 ^ 52 ≤ (n : ℚ) / d) (unit : ℤ) {other : ℕ}
    (hother : other < 2 ^ 53) (e : ℤ) :
    |(nearest n d : ℚ) * 2 ^ unit - n / d * 2 ^ unit| ≤ |(other : ℚ) * 2 ^ e - n / d * 2 ^ unit| ∧
      (|(other : ℚ) * 2 ^ e - n / d * 2 ^ unit| = |(nearest n d : ℚ) * 2 ^ unit - n / d * 2 ^ unit| →
        (other : ℚ) * 2 ^ e = nearest n d * 2 ^ unit ∨ Even (nearest n d)) := by
  have hunit : (0 : ℚ) < 2 ^ unit := by positivity
  rcases inUnits_cases hother e unit with ⟨k, hk⟩ | hless
  · obtain ⟨hle, htie⟩ := abs_nearest_sub_le n hd k
    rw [hk, abs_mul_unit_sub, abs_mul_unit_sub]
    refine ⟨by gcongr, fun hequal => ?_⟩
    apply (htie (mul_right_cancel₀ hunit.ne' hequal)).imp_left
    rintro rfl
    rfl
  · -- The least value with 53 bits in these units lies between.
    have hleast := (abs_nearest_sub_le n hd (2 ^ 52)).1
    have hdistance : |((2 ^ 52 : ℕ) : ℚ) - n / d| * 2 ^ unit = n / d * 2 ^ unit - 2 ^ 52 * 2 ^ unit := by
      push_cast
      rw [abs_sub_comm, abs_of_nonneg (by linarith)]
      ring
    have hfarther : |(nearest n d : ℚ) * 2 ^ unit - n / d * 2 ^ unit| < |(other : ℚ) * 2 ^ e - n / d * 2 ^ unit| :=
      calc |(nearest n d : ℚ) * 2 ^ unit - n / d * 2 ^ unit|
          = |(nearest n d : ℚ) - n / d| * 2 ^ unit := abs_mul_unit_sub _ _ _
        _ ≤ |((2 ^ 52 : ℕ) : ℚ) - n / d| * 2 ^ unit := by gcongr
        _ = n / d * 2 ^ unit - 2 ^ 52 * 2 ^ unit := hdistance
        _ < n / d * 2 ^ unit - other * 2 ^ e := by linarith
        _ ≤ |(other : ℚ) * 2 ^ e - n / d * 2 ^ unit| := by
          rw [abs_sub_comm]
          exact le_abs_self _
    exact ⟨hfarther.le, fun hequal => absurd hequal hfarther.ne'⟩

/-- Rounding in such a unit gives 53 bits, or the next power of two. -/
lemma isNearest_nearest {n d : ℕ} (hd : 0 < d) (hlow : 2 ^ 52 ≤ (n : ℚ) / d) (hhigh : (n : ℚ) / d < 2 ^ 53)
    (unit : ℤ) :
    (nearest n d ≠ 2 ^ 53 → IsNearest (n / d * 2 ^ unit) (nearest n d) unit) ∧
      (nearest n d = 2 ^ 53 → IsNearest (n / d * 2 ^ unit) (2 ^ 52) (unit + 1)) := by
  have hbounds : 2 ^ 52 ≤ nearest n d ∧ nearest n d ≤ 2 ^ 53 := by
    apply nearest_mem hd
    · exact_mod_cast hlow
    · exact_mod_cast hhigh
  constructor
  · intro hbits
    refine ⟨by omega, ?_, ?_⟩
    · exact fun other e hother => (nearest_mul_unit hd hlow unit hother e).1
    · exact fun other e hother => (nearest_mul_unit hd hlow unit hother e).2
  · intro hcarry
    have hvalue : ((2 ^ 52 : ℕ) : ℚ) * 2 ^ (unit + 1) = nearest n d * 2 ^ unit := by
      rw [hcarry, zpow_add_one₀ two_ne_zero]
      push_cast
      ring
    have heven : Even (2 ^ 52) := by decide
    refine ⟨by omega, ?_, fun _ _ _ _ => .inr heven⟩
    rw [hvalue]
    exact fun other e hother => (nearest_mul_unit hd hlow unit hother e).1

lemma ofQuotient_of_inUnits (negative : Bool) (hnum : num ≠ 0) {n d : ℕ}
    (hinUnits : inUnits num den (exponentFor num den) = (n, d)) (hrange : exponentFor num den < maxExponent) :
    ofQuotient negative num den = if nearest n d = 2 ^ 53
      then .finite negative (2 ^ 52) (exponentFor num den + 1)
      else .finite negative (nearest n d) (exponentFor num den) := by
  simp only [ofQuotient, hnum, if_false, hinUnits, Nat.pow_eq]
  split_ifs <;> first | rfl | omega

/-- A quotient within the range becomes the nearest value. -/
theorem isNearest_ofQuotient (negative : Bool) (hnum : num ≠ 0) (hden : 0 < den)
    (hlow : (den.log2 : ℤ) ≤ num.log2 + 1021) (hhigh : (num.log2 : ℤ) ≤ den.log2 + 1022) :
    ∃ significand exponent, ofQuotient negative num den = .finite negative significand exponent ∧
      IsNearest ((num : ℚ) / den) significand exponent := by
  obtain ⟨hmin, hmax, hexponent⟩ := exponentFor_spec hnum hden hlow
  have hrange : exponentFor num den < maxExponent := by
    rw [maxExponent]
    omega
  have hpos := inUnits_pos num hden (exponentFor num den)
  have hquotient := inUnits_div num den (exponentFor num den)
  obtain ⟨⟨n, d⟩, hinUnits⟩ : ∃ quotient, inUnits num den (exponentFor num den) = quotient := ⟨_, rfl⟩
  rw [hinUnits] at hpos hquotient
  rw [← hquotient] at hmin hmax
  have hx : (num : ℚ) / den = n / d * 2 ^ exponentFor num den := by
    rw [hquotient, div_mul_cancel₀ _ (zpow_ne_zero _ two_ne_zero)]
  obtain ⟨hbits, hcarry⟩ := isNearest_nearest hpos hmin hmax (exponentFor num den)
  rw [ofQuotient_of_inUnits negative hnum hinUnits hrange, hx]
  split_ifs with h
  · exact ⟨_, _, rfl, hcarry h⟩
  · exact ⟨_, _, rfl, hbits h⟩

end CommandWrap.Binary64
