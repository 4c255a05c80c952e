import Mathlib
import CommandWrap.Proofs.Number.Nearest
import CommandWrap.Proofs.Report
import CommandWrap.Proofs.Time.RoundTrip

/-! The time that a report shows. Seconds are rounded to 53 bits before they are cut down to minutes, which
changes the minutes only for spans of centuries. -/
namespace CommandWrap.Report

open Binary64 (IsNearest)

variable {micros : ℕ} {significand : ℕ} {exponent : ℤ}

/-! ### Minutes of rounded seconds -/

/-- The minutes of `significand · 2 ^ exponent` seconds. -/
def minutesOf (significand : ℕ) (exponent : ℤ) : ℕ := ⌊(significand : ℚ) * 2 ^ exponent / 60⌋₊

lemma div_eq_minutesOf (significand : ℕ) (exponent : ℤ) :
    significand * Nat.pow 2 exponent.toNat / (60 * Nat.pow 2 (-exponent).toNat) =
      minutesOf significand exponent := by
  have hvalue : (significand : ℚ) * 2 ^ exponent / 60 =
      ((significand * 2 ^ exponent.toNat : ℕ) : ℚ) / ((60 * 2 ^ (-exponent).toNat : ℕ) : ℚ) := by
    push_cast
    rcases le_total 0 exponent with he | he
    · obtain ⟨e, rfl⟩ := Int.eq_ofNat_of_zero_le he
      simp
    · obtain ⟨e, rfl⟩ := Int.exists_eq_neg_ofNat he
      rw [Int.toNat_neg_natCast, neg_neg, Int.toNat_natCast, zpow_neg, zpow_natCast, pow_zero]
      field_simp
  rw [minutesOf, hvalue, Nat.floor_div_eq_div]
  rfl

lemma le_minutesOf (h : IsNearest ((micros : ℚ) / 1000000) significand exponent) (hsmall : micros < 2 ^ 59) :
    micros / 60000000 ≤ minutesOf significand exponent := by
  have hbound : 60 * (micros / 60000000) < 2 ^ 53 := by omega
  have hbelow : ((60 * (micros / 60000000) : ℕ) : ℚ) * 1000000 ≤ micros := by
    have hwhole : 60 * (micros / 60000000) * 1000000 ≤ micros := by omega
    exact_mod_cast hwhole
  have hrounded := h.le_of_le hbound 0 (by rw [zpow_zero]; linarith)
  apply Nat.le_floor
  push_cast at hrounded
  linarith

lemma minutesOf_le (h : IsNearest ((micros : ℚ) / 1000000) significand exponent) (hsmall : micros < 2 ^ 59) :
    minutesOf significand exponent ≤ micros / 60000000 + 1 := by
  have hbound : 60 * (micros / 60000000 + 1) < 2 ^ 53 := by omega
  have habove : (micros : ℚ) ≤ ((60 * (micros / 60000000 + 1) : ℕ) : ℚ) * 1000000 := by
    have hwhole : micros ≤ 60 * (micros / 60000000 + 1) * 1000000 := by omega
    exact_mod_cast hwhole
  have hrounded := h.ge_of_ge hbound 0 (by rw [zpow_zero]; linarith)
  apply Nat.floor_le_of_le
  push_cast at hrounded ⊢
  linarith

/-- Below `2 ^ 34` seconds, values of 53 bits are less than two microseconds apart. -/
lemma lt_of_isNearest (h : IsNearest ((micros : ℚ) / 1000000) significand exponent)
    (hsmall : micros < 2 ^ 34 * 1000000) {limit : ℕ} (hlimit : micros < limit * 1000000) :
    (significand : ℚ) * 2 ^ exponent < limit := by
  have hcast : (micros : ℚ) + 1 ≤ limit * 1000000 := by exact_mod_cast hlimit
  rcases le_or_gt limit (2 ^ 34) with hrange | hrange
  · -- The value next below the limit is nearer than the limit.
    have hnext : limit * 2 ^ 19 - 1 < 2 ^ 53 := by omega
    have hvalue : ((limit * 2 ^ 19 - 1 : ℕ) : ℚ) * 2 ^ (-19 : ℤ) = limit - 1 / 2 ^ 19 := by
      have hone : 1 ≤ limit * 2 ^ 19 := by omega
      rw [Nat.cast_sub hone, zpow_neg]
      push_cast
      norm_num
      ring
    apply h.lt_of_nearer hnext (-19)
    · rw [hvalue]
      linarith
    · rw [hvalue]
      linarith
  · have hcast : (micros : ℚ) ≤ 2 ^ 34 * 1000000 := by exact_mod_cast hsmall.le
    calc (significand : ℚ) * 2 ^ exponent ≤ (1 : ℕ) * 2 ^ (34 : ℤ) := by
          apply h.ge_of_ge (by norm_num) 34
          norm_num
          linarith
      _ = (2 ^ 34 : ℕ) := by norm_num
      _ < limit := by exact_mod_cast hrange

lemma minutesOf_eq (h : IsNearest ((micros : ℚ) / 1000000) significand exponent)
    (hsmall : micros < 2 ^ 34 * 1000000) : minutesOf significand exponent = micros / 60000000 := by
  have hlimit : micros < 60 * (micros / 60000000 + 1) * 1000000 :=
    calc micros < 60000000 * (micros / 60000000 + 1) := Nat.lt_mul_div_succ micros (by decide)
      _ = 60 * (micros / 60000000 + 1) * 1000000 := by ring
  have hless := lt_of_isNearest h hsmall hlimit
  apply le_antisymm
  · apply Nat.le_of_lt_succ
    apply (Nat.floor_lt (by positivity)).mpr
    push_cast at hless ⊢
    linarith
  · exact le_minutesOf h (by omega)

/-! ### Whole minutes of a span -/

lemma wholeMinutes_of_nonpos {span : ℤ} (h : span ≤ 0) : wholeMinutes span = 0 := by
  rw [wholeMinutes, Int.toNat_of_nonpos h]
  exact (div_eq_minutesOf 0 Binary64.minExponent).trans (by simp [minutesOf])

/-- The seconds of a span are rounded, and then cut down to minutes. -/
lemma wholeMinutes_natCast (hpos : 0 < micros) (hsmall : micros < 2 ^ 59) :
    ∃ significand exponent, IsNearest ((micros : ℚ) / 1000000) significand exponent ∧
      wholeMinutes micros = minutesOf significand exponent := by
  have hden : (1000000 : ℕ).log2 = 19 := by decide
  have hnum : micros.log2 < 59 := (Nat.log2_lt hpos.ne').mpr hsmall
  obtain ⟨significand, exponent, hvalue, hnearest⟩ := Binary64.isNearest_ofQuotient false hpos.ne'
    (by decide : 0 < 1000000) (by omega) (by omega)
  refine ⟨significand, exponent, by exact_mod_cast hnearest, ?_⟩
  rw [wholeMinutes, Int.toNat_natCast, hvalue]
  exact div_eq_minutesOf significand exponent

/-- The whole minutes of a span in microseconds: those of its seconds rounded to 53 bits, which are its own
below `2 ^ 34` seconds, and may be one more above. -/
structure Measures (span : ℤ) (minutes : ℕ) : Prop where
  past : span < 0 → minutes = 0
  rounded : 0 < span → ∃ significand exponent,
    IsNearest ((span : ℚ) / 1000000) significand exponent ∧ minutes = minutesOf significand exponent
  exact : 0 ≤ span → span < 2 ^ 34 * 10 ^ 6 → (minutes : ℤ) = span / 60000000
  close : 2 ^ 34 * 10 ^ 6 ≤ span → (minutes : ℤ) = span / 60000000 ∨ (minutes : ℤ) = span / 60000000 + 1

lemma measures_wholeMinutes {span : ℤ} (hsmall : span < 2 ^ 59) : Measures span (wholeMinutes span) := by
  rcases le_or_gt span 0 with hspan | hspan
  · have hzero := wholeMinutes_of_nonpos hspan
    refine ⟨fun _ => hzero, fun h => absurd h hspan.not_gt, ?_, ?_⟩
    · intro hstart hless
      omega
    · omega
  · obtain ⟨micros, rfl⟩ := Int.eq_ofNat_of_zero_le hspan.le
    have hpos : 0 < micros := by omega
    have hsmall : micros < 2 ^ 59 := by exact_mod_cast hsmall
    obtain ⟨significand, exponent, hnearest, hminutes⟩ := wholeMinutes_natCast hpos hsmall
    rw [hminutes]
    have hleast := le_minutesOf hnearest hsmall
    have hmost := minutesOf_le hnearest hsmall
    refine ⟨by omega, fun _ => ⟨significand, exponent, by rwa [Int.cast_natCast], rfl⟩, ?_, ?_⟩
    · intro _ hrange
      have heq := minutesOf_eq hnearest (by exact_mod_cast hrange)
      omega
    · intro _
      omega

/-- Above, rounding can go up to a full minute that is a microsecond away. -/
example : wholeMinutes (60 * 286331154 * 10 ^ 6 - 1) = 286331154 := by decide

/-! ### Spans between points in time -/

lemma foldl_add_le {lengths : List ℕ} (h : ∀ n ∈ lengths, n ≤ 31) (start : ℕ) :
    lengths.foldl (· + ·) start ≤ start + 31 * lengths.length := by
  induction lengths generalizing start with
  | nil => simp
  | cons first lengths ih =>
    obtain ⟨hfirst, hmore⟩ := List.forall_mem_cons.mp h
    have hrest := ih hmore (start + first)
    rw [List.foldl_cons, List.length_cons]
    omega

lemma dayNumber_lt {d : Date} (hd : d.Valid) : d.dayNumber < 3700000 := by
  have hday := Stamp.day_le hd
  obtain ⟨-, hyear, -, hmonth, -, -⟩ := hd
  have hlengths : ∀ n ∈ (Date.monthLengths d.year).take (d.month - 1), n ≤ 31 := by
    intro n hn
    exact Stamp.monthLength_le d.year n (List.mem_of_mem_take hn)
  have hmonths := foldl_add_le hlengths (Date.daysBeforeYear d.year)
  have hcount := List.length_take_le (d.month - 1) (Date.monthLengths d.year)
  have hyears : Date.daysBeforeYear d.year ≤ 365 * 9998 + 9998 / 4 + 9998 / 400 := by
    rw [Date.daysBeforeYear]
    omega
  rw [Date.dayNumber]
  omega

lemma instant_sub_lt {started now : Stamp} (hstarted : started.Valid) (hnow : now.Valid) :
    now.instant - started.instant < 2 ^ 59 := by
  have hoffset : ∀ s : Stamp, s.Valid → (s.offset.getD 0).natAbs < Stamp.microsPerDay := by
    intro s hs
    cases h : s.offset with
    | none => decide
    | some o => exact hs.offset o h
  have hday := dayNumber_lt hnow.date
  have hmicros := hnow.micros
  have hstart := hoffset started hstarted
  have hend := hoffset now hnow
  rw [Stamp.instant, Stamp.instant]
  rw [Stamp.microsPerDay] at *
  omega

/-! ### The heading -/

/-- Minutes as they are shown, with hours in front if there are sixty or more. -/
def IsShown (minutes : ℕ) (shown : Text) : Prop :=
  minutes < 60 ∧ shown = Text.ofNat minutes ++ "m" ∨
    ∃ hours rest, 1 ≤ hours ∧ rest < 60 ∧ 60 * hours + rest = minutes ∧
      shown = Text.ofNat hours ++ "h " ++ Text.ofNat rest ++ "m"

lemma isShown_duration (minutes : ℕ) : IsShown minutes (duration minutes) := by
  unfold duration
  split_ifs with h
  · exact .inl ⟨h, rfl⟩
  · refine .inr ⟨minutes / 60, minutes % 60, ?_, ?_, ?_, rfl⟩ <;> omega

lemma head_splitOn_render (minutes : ℕ) (tally : Tally) :
    (Text.splitOn (CodePoint.ofChar '\n') (render minutes tally)).head? = some (heading minutes) := by
  have hheading := newline_notMem_heading minutes
  unfold render
  split_ifs
  · exact congrArg List.head? (Text.splitOn_lines_cons hheading _ _)
  · exact congrArg List.head? (Text.splitOn_lines_cons hheading _ _)

/-- The heading of a report shows the whole minutes from the one time to the other, and none if the one
is the later. -/
theorem report_shows {started now : Stamp} (hstarted : started.Valid) (hnow : now.Valid)
    (hstart : started.offset.isSome = true) (hend : now.offset.isSome = true) (tally : Tally) :
    ∃ (report : Text) (minutes : ℕ) (shown : Text), ofTally? started now tally = some report ∧
      (Text.splitOn (CodePoint.ofChar '\n') report).head? = some ("RTK Session Stats (" ++ shown ++ ")") ∧
      IsShown minutes shown ∧ Measures (now.instant - started.instant) minutes ∧
      (now.instant < started.instant → shown = "0m") := by
  have hmeasures := measures_wholeMinutes (instant_sub_lt hstarted hnow)
  refine ⟨_, _, _, ofTally?_eq_some hstart hend tally, head_splitOn_render _ tally, isShown_duration _,
    hmeasures, fun hpast => ?_⟩
  have hzero := hmeasures.past (by omega)
  rw [hzero]
  rfl

/-! ### A microsecond before the last full minute below `2 ^ 34` seconds -/

def firstDay : Stamp := ⟨⟨1, 1, 1⟩, 0, some 0⟩

def centuriesLater : Stamp := ⟨⟨545, 5, 30⟩, 6779999999, some 0⟩

theorem report_shows_centuries : firstDay.Valid ∧ centuriesLater.Valid ∧
    firstDay.offset.isSome = true ∧ centuriesLater.offset.isSome = true ∧
    centuriesLater.instant - firstDay.instant = 60 * 286331153 * 10 ^ 6 - 1 ∧
    ∃ report, ofTally? firstDay centuriesLater (Tally.ofCommands []) = some report ∧
      (Text.splitOn (CodePoint.ofChar '\n') report).head? = some "RTK Session Stats (4772185h 52m)" := by
  have hfirst : firstDay.Valid := ⟨by decide, by decide, by decide⟩
  have hlater : centuriesLater.Valid := ⟨by decide, by decide, by decide⟩
  have hspan : centuriesLater.instant - firstDay.instant = 60 * 286331153 * 10 ^ 6 - 1 := by decide
  obtain ⟨report, minutes, shown, hreport, hhead, hshown, hmeasures, -⟩ :=
    report_shows hfirst hlater rfl rfl (Tally.ofCommands [])
  rw [hspan] at hmeasures
  have hminutes := hmeasures.exact (by decide) (by decide)
  refine ⟨hfirst, hlater, rfl, rfl, hspan, report, hreport, ?_⟩
  rw [hhead]
  rcases hshown with ⟨hless, -⟩ | ⟨hours, rest, -, hrest, hsum, rfl⟩
  · omega
  · obtain rfl : hours = 4772185 := by omega
    obtain rfl : rest = 52 := by omega
    decide

end CommandWrap.Report
