/-
  FilterTemplate.Calendar.Instant

  Points in time to the nanosecond, in Universal Time, and their text with
  milliseconds. A leap second is written as the second before it with more
  than a thousand million nanoseconds, and shows as second 60.
-/
import FilterTemplate.Calendar.Date

namespace FilterTemplate

/-- A point in time within the calendar's years, as it is made from whole seconds since 1970 began
and nanoseconds. All results on timestamps are about these. -/
structure Instant where
  seconds : Int
  nanos : Nat
  nanos_lt : nanos < 2000000000
  /-- Made so, an instant is in a leap second only behind the last second of a minute. -/
  leap : 1000000000 ≤ nanos → seconds % 60 = 59
  seconds_mem : -96465292 * 86400 ≤ seconds ∧ seconds < 95026237 * 86400
  deriving DecidableEq

namespace Instant

/-- The instant with the given seconds and nanoseconds, if there is one. -/
def ofParts? (seconds : Int) (nanos : Nat) : Option Instant :=
  if h : nanos < 2000000000 ∧ (1000000000 ≤ nanos → seconds % 60 = 59) ∧
      -96465292 * 86400 ≤ seconds ∧ seconds < 95026237 * 86400 then
    some ⟨seconds, nanos, h.1, h.2.1, h.2.2⟩
  else
    none

/-- The first instant of a date. -/
def ofDate (d : Date) : Instant where
  seconds := d.dayNumber * 86400
  nanos := 0
  nanos_lt := by decide
  leap := by intro h; exact absurd h (by decide)
  seconds_mem := by
    have := d.dayNumber_mem
    omega

/-! ## Clock fields -/

/-- The day number of an instant. -/
def day (t : Instant) : Int :=
  t.seconds / 86400

/-- The seconds of the day before an instant. -/
def secondOfDay (t : Instant) : Nat :=
  (t.seconds % 86400).toNat

/-- The hour, the minute and the second, which is 60 in a leap second. -/
def clock (t : Instant) : Nat × Nat × Nat :=
  let s := t.secondOfDay
  (s / 3600, s / 60 % 60, s % 60 + t.nanos / 1000000000)

/-- The whole milliseconds of the second. -/
def millis (t : Instant) : Nat :=
  t.nanos % 1000000000 / 1000000

end Instant

/-! ## Text -/

/-- A number with zeros in front, up to the given width. -/
def zeroPadded (width n : Nat) : List Char :=
  let digits := Nat.toDigits 10 n
  List.replicate (width - digits.length) '0' ++ digits

/-- A year in four digits, or with its sign and at least four where four do not hold it. -/
def yearText (year : Int) : List Char :=
  if 0 ≤ year ∧ year ≤ 9999 then zeroPadded 4 year.toNat
  else (if year < 0 then '-' else '+') :: zeroPadded 4 year.natAbs

namespace Instant

/-- The date and the time of an instant to the millisecond, with `separator` between them. -/
def text (separator : Char) (t : Instant) : List Char :=
  let (year, month, day) := civil t.day
  let (hour, minute, second) := t.clock
  yearText year ++ '-' :: zeroPadded 2 month ++ '-' :: zeroPadded 2 day ++
    separator :: zeroPadded 2 hour ++ ':' :: zeroPadded 2 minute ++ ':' :: zeroPadded 2 second ++
    '.' :: zeroPadded 3 t.millis ++ ['Z']

/-- The form of ISO 8601. -/
def isoText (t : Instant) : List Char :=
  t.text 'T'

example : (ofParts? 1483228799 1500000000).map isoText =
    some "2016-12-31T23:59:60.500Z".toList := by decide +kernel

example : (ofParts? (-62167219201) 999999).map isoText =
    some "-0001-12-31T23:59:59.000Z".toList := by decide +kernel

end Instant

end FilterTemplate
