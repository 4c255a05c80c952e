import CommandWrap.Text.Basic
import CommandWrap.Time.Stamp

/-!
The ISO 8601 forms of points in time. One form is written; many are read: calendar and week dates,
with or without separators, cut short after any part.
-/
namespace CommandWrap.Stamp

/-! ### Writing -/

/-- Hours and minutes; seconds too when `seconds` asks for them or they are not zero. -/
def clockText (seconds : Bool) (micros : Nat) : Text :=
  let s := micros / 1000000
  let fraction := micros % 1000000
  Text.padZeros 2 (s / 3600) ++ ":" ++ Text.padZeros 2 (s / 60 % 60) ++
    (if seconds || s % 60 ≠ 0 || fraction ≠ 0 then ":" ++ Text.padZeros 2 (s % 60) else []) ++
    (if fraction ≠ 0 then "." ++ Text.padZeros 6 fraction else [])

def offsetText (offset : Int) : Text :=
  (if offset < 0 then "-" else "+") ++ clockText false offset.natAbs

def dateText (d : Date) : Text :=
  Text.padZeros 4 d.year ++ "-" ++ Text.padZeros 2 d.month ++ "-" ++ Text.padZeros 2 d.day

def localText (s : Stamp) : Text := dateText s.date ++ "T" ++ clockText true s.micros

def isoText (s : Stamp) : Text :=
  s.localText ++ (s.offset.map offsetText).getD []

/-- The instant in universal time, marked with `Z`. -/
def zuluText (s : Stamp) : Text := s.toUtc.localText ++ "Z"

/-! ### Reading -/

/-- A number of exactly `width` digits, and what follows. -/
def number? (width : Nat) (t : Text) : Option (Nat × Text) :=
  let digits := t.take width
  if digits.length = width ∧ digits.all CodePoint.isDigit then
    some (Text.digitsValue digits, t.drop width)
  else none

def dash? (t : Text) : Option Text := if t.head? = some '-' then some (t.drop 1) else none

/-- A date that is the whole of a text. -/
def readDate? (t : Text) : Option Date := do
  let (year, rest) ← number? 4 t
  let dashed := rest.head? = some '-'
  let rest := if dashed then rest.drop 1 else rest
  if rest.head? = some 'W' then
    let (week, rest) ← number? 2 (rest.drop 1)
    if rest = [] then Date.ofWeek? year week 1
    else
      let rest ← if dashed then dash? rest else some rest
      let (day, rest) ← number? 1 rest
      if rest = [] then Date.ofWeek? year week day else none
  else
    let (month, rest) ← number? 2 rest
    let rest ← if dashed then dash? rest else some rest
    let (day, rest) ← number? 2 rest
    if rest = [] then Date.of? year month day else none

/-- Where a date ends and the sign before the time stands. A week date may be cut short before the
day, so digits and dashes behind the week are told apart by what follows them. -/
def dateLength? (t : Text) : Option Nat :=
  let stands (c : CodePoint) (i : Nat) : Bool := (t.drop i).head? = some c
  if t.length < 7 then none
  else if t.length = 7 then some 7
  else if stands '-' 4 then
    if !stands 'W' 5 then some 10
    else if !stands '-' 8 then some 8
    else if t.length = 9 then none
    else if (t.drop 10).head?.any CodePoint.isDigit then some 8
    else some 10
  else if !stands 'W' 4 then some 8
  else
    let stop := 7 + ((t.drop 7).takeWhile CodePoint.isDigit).length
    if stop < 9 then some stop
    else if stop % 2 = 0 then some 7
    else some 8

/-- A null is taken for the end of a time. -/
def upToNull (t : Text) : Text := t.takeWhile fun c => c.val ≠ 0

/-- Hours, minutes and seconds as read, none of them checked. -/
structure Clock where
  hour : Nat
  minute : Nat
  second : Nat
  micro : Nat

def Clock.micros (c : Clock) : Nat :=
  ((c.hour * 60 + c.minute) * 60 + c.second) * 1000000 + c.micro

def Clock.Valid (c : Clock) : Prop := c.hour < 24 ∧ c.minute < 60 ∧ c.second < 60

instance (c : Clock) : Decidable c.Valid := inferInstanceAs (Decidable (_ ∧ _))

/-- A decimal fraction of a second in microseconds; digits behind the sixth are dropped. -/
def fraction? (t : Text) : Option (Nat × Text) :=
  let digits := t.take 6
  if digits ≠ [] ∧ digits.all CodePoint.isDigit then
    some (Text.digitsValue digits * Nat.pow 10 (6 - digits.length),
      upToNull ((t.drop 6).dropWhile CodePoint.isDigit))
  else none

def isFractionMark (c : CodePoint) : Bool := c = '.' || c = ','

/-- What may follow `left` more components than one: nothing, a fraction of a second, or the next
component, behind a colon if the first two had one between them. A single sign is left unread. -/
def clockRest (colons : Bool) (read : List Nat) : (left : Nat) → Text → Option (List Nat × Nat × Text)
  | _, [] => some (read, 0, [])
  | left, c :: rest =>
    if rest = [] then if c.isAscii then some (read, 0, upToNull [c]) else none
    else if isFractionMark c then (fraction? rest).map fun (f, rest) => (read, f, rest)
    else if colons && c ≠ ':' then none
    else
      let next := if colons then rest else c :: rest
      match left with
      | 0 => (fraction? next).map fun (f, rest) => (read, f, rest)
      | left + 1 =>
        (number? 2 next).bind fun (n, rest) => clockRest colons (read ++ [n]) left rest

/-- A time of day, and what is left of the text. -/
def clock? (t : Text) : Option (Clock × Text) := do
  let (hour, rest) ← number? 2 t
  let (read, micro, rest) ← clockRest (rest.head? = some ':') [] 2 rest
  return (⟨hour, read.getD 0 0, read.getD 1 0, micro⟩, rest)

/-- An offset without whole seconds is none at all; a day or more is no offset. -/
def offset? (negative : Bool) (t : Text) : Option Int := do
  let (c, rest) ← clock? t
  if rest ≠ [] ∨ microsPerDay ≤ c.micros then none
  else if c.micros < 1000000 then some 0
  else some (if negative then -(c.micros : Int) else c.micros)

def isOffsetMark (c : CodePoint) : Bool := c = '+' || c = '-' || c = 'Z'

/-- A time of day with its offset. Before an offset, what the time leaves unread is passed over. -/
def readTime? (t : Text) : Option (Nat × Option Int) := do
  let (c, rest) ← clock? (t.takeWhile fun c => !isOffsetMark c)
  if ¬ c.Valid then none
  else match t.dropWhile fun c => !isOffsetMark c with
    | [] => if rest = [] then some (c.micros, none) else none
    | mark :: behind =>
      if mark = 'Z' then if upToNull behind = [] then some (c.micros, some 0) else none
      else (offset? (mark = '-') behind).map fun o => (c.micros, some o)

/-- Any one code point may stand between the date and the time. -/
def parse? (t : Text) : Option Stamp := do
  let length ← dateLength? t
  let date ← readDate? (t.take length)
  match t.drop length with
  | [] => some ⟨date, 0, none⟩
  | _ :: time => (readTime? time).map fun (micros, offset) => ⟨date, micros, offset⟩

end CommandWrap.Stamp
