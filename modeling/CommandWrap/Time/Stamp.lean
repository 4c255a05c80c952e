import CommandWrap.Time.Date
import CommandWrap.Number.Binary64

/-!
Points in time as they are written: a local date and time, and its offset from universal time unless
that is left open.
-/
namespace CommandWrap

/-- `micros` counts from local midnight, `offset` is in microseconds. -/
structure Stamp where
  date : Date
  micros : Nat
  offset : Option Int
deriving DecidableEq

namespace Stamp

def microsPerDay : Nat := 86400 * 1000000

/-- A missing offset counts as universal time. -/
def assumeUtc (s : Stamp) : Stamp := { s with offset := some (s.offset.getD 0) }

/-- Microseconds of universal time since the first day of year 1. -/
def instant (s : Stamp) : Int :=
  (s.date.dayNumber * microsPerDay + s.micros : Nat) - s.offset.getD 0

/-- The universal time so many microseconds after the start of year 1. -/
def ofInstant (n : Nat) : Stamp :=
  ⟨.ofDayNumber (n / microsPerDay), n % microsPerDay, some 0⟩

/-- The same instant with no offset from universal time. -/
def toUtc (s : Stamp) : Stamp := ofInstant s.instant.toNat

/-- Microseconds from `start` to `now`. Times with and without an offset do not compare. -/
def elapsed? (start now : Stamp) : Option Int :=
  if start.offset.isSome = now.offset.isSome then some (now.instant - start.instant) else none

end Stamp

/-- The whole minutes in a time span. The span is first rounded to seconds in binary floating point;
a negative one has none. -/
def wholeMinutes (micros : Int) : Nat :=
  match Binary64.ofQuotient false micros.toNat 1000000 with
  | .finite _ m e => m * Nat.pow 2 e.toNat / (60 * Nat.pow 2 (-e).toNat)
  | _ => 0

end CommandWrap
