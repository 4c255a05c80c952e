/-! Dates of the Gregorian calendar, extended backwards, in the years 1 to 9999. -/
namespace CommandWrap

structure Date where
  year : Nat
  month : Nat
  day : Nat
deriving DecidableEq

namespace Date

def isLeap (year : Nat) : Bool :=
  year % 4 = 0 && (year % 100 ≠ 0 || year % 400 = 0)

def monthLengths (year : Nat) : List Nat :=
  [31, if isLeap year then 29 else 28, 31, 30, 31, 30, 31, 31, 30, 31, 30, 31]

def Valid (d : Date) : Prop :=
  1 ≤ d.year ∧ d.year ≤ 9999 ∧ 1 ≤ d.month ∧ d.month ≤ 12 ∧
    1 ≤ d.day ∧ d.day ≤ (monthLengths d.year).getD (d.month - 1) 0

instance (d : Date) : Decidable d.Valid := inferInstanceAs (Decidable (_ ∧ _))

def of? (year month day : Nat) : Option Date :=
  let d : Date := ⟨year, month, day⟩
  if d.Valid then some d else none

/-- Days before the first day of `year`, counted from the first day of year 1. -/
def daysBeforeYear (year : Nat) : Nat :=
  let y := year - 1
  365 * y + y / 4 - y / 100 + y / 400

/-- Days since the first day of year 1. -/
def dayNumber (d : Date) : Nat :=
  ((monthLengths d.year).take (d.month - 1)).foldl (· + ·) (daysBeforeYear d.year) + (d.day - 1)

/-- The month and the day that lie `days` into a year whose remaining months have these lengths. -/
def monthAndDay (month days : Nat) : List Nat → Nat × Nat
  | [] => (month, days + 1)
  | length :: lengths =>
    if days < length then (month, days + 1) else monthAndDay (month + 1) (days - length) lengths

/-- The year that holds a day: whole cycles of 400, 100, 4 and 1 years, where the last day of a cycle
of leap years belongs to the year before. -/
def yearOfDayNumber (n : Nat) : Nat :=
  let r400 := n % 146097
  let r100 := r400 % 36524
  let r4 := r100 % 1461
  let year := 400 * (n / 146097) + 100 * (r400 / 36524) + 4 * (r100 / 1461) + r4 / 365
  if r400 / 36524 = 4 ∨ r4 / 365 = 4 then year else year + 1

def ofDayNumber (n : Nat) : Date :=
  let year := yearOfDayNumber n
  let (month, day) := monthAndDay 1 (n - daysBeforeYear year) (monthLengths year)
  ⟨year, month, day⟩

/-- Monday is 0. -/
def weekday (d : Date) : Nat := d.dayNumber % 7

/-- Years that begin on a Thursday have a 53rd week, and so do leap years that begin on a
Wednesday. -/
def weeksInYear (year : Nat) : Nat :=
  let first := weekday ⟨year, 1, 1⟩
  if first = 3 ∨ first = 2 ∧ isLeap year then 53 else 52

/-- The day of a week of the year; week 1 is the one that holds 4 January. -/
def ofWeek? (year week day : Nat) : Option Date :=
  if 1 ≤ year ∧ year ≤ 9999 ∧ 1 ≤ week ∧ week ≤ weeksInYear year ∧ 1 ≤ day ∧ day ≤ 7 then
    let fourth := dayNumber ⟨year, 1, 4⟩
    let d := ofDayNumber (fourth - fourth % 7 + 7 * (week - 1) + (day - 1))
    if d.Valid then some d else none
  else none

end Date
end CommandWrap
