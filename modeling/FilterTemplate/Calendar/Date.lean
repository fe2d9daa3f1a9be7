/-
  FilterTemplate.Calendar.Date

  The proleptic Gregorian calendar: dates, and days counted from the first of
  January 1970. `Date.dayNumber` counts the days before a date; `civil` finds
  the date of a day again. Years have leap days as the Gregorian rule has them
  in both directions, with a year zero and negative years before it.
-/

namespace FilterTemplate

/-! ## Years and months -/

/-- Every fourth year is a leap year, of the hundredth years every fourth. -/
def isLeapYear (year : Int) : Bool :=
  year % 4 == 0 && (year % 100 != 0 || year % 400 == 0)

/-- The number of days in a month, `1` to `12`. -/
def daysInMonth (leap : Bool) (month : Nat) : Nat :=
  match month with
  | 2 => if leap then 29 else 28
  | 4 | 6 | 9 | 11 => 30
  | _ => 31

/-- The number of days of a year before a month, `1` to `12`. -/
def daysBeforeMonth (leap : Bool) : (month : Nat) → Nat
  | 0 => 0
  | 1 => 0
  | month + 2 => daysBeforeMonth leap (month + 1) + daysInMonth leap (month + 1)

/-- The number of days from the first of January 1970 to the first day of a year. -/
def daysBeforeYear (year : Int) : Int :=
  let before := year - 1
  365 * before + before / 4 - before / 100 + before / 400 - 719162

/-! ## Dates -/

/-- The first year of the calendar. -/
def firstYear : Int :=
  -262143

/-- The last year of the calendar. -/
def lastYear : Int :=
  262142

/-- A date that exists. -/
structure Date where
  year : Int
  month : Nat
  day : Nat
  year_mem : firstYear ≤ year ∧ year ≤ lastYear
  month_mem : 1 ≤ month ∧ month ≤ 12
  day_mem : 1 ≤ day ∧ day ≤ daysInMonth (isLeapYear year) month
  deriving DecidableEq

namespace Date

/-- The date with the given fields, if there is one. -/
def ofFields? (year : Int) (month day : Nat) : Option Date :=
  if h : (firstYear ≤ year ∧ year ≤ lastYear) ∧ (1 ≤ month ∧ month ≤ 12) ∧
      1 ≤ day ∧ day ≤ daysInMonth (isLeapYear year) month then
    some ⟨year, month, day, h.1, h.2.1, h.2.2⟩
  else
    none

/-- The number of days from the first of January 1970 to a date. -/
def dayNumber (d : Date) : Int :=
  daysBeforeYear d.year + daysBeforeMonth (isLeapYear d.year) d.month + (d.day - 1 : Nat)

end Date

/-! ## The date of a day -/

/-- The year that a day number falls into. A year's length is close to
`146097 / 400` days, so the quotient is the year or one beside it. -/
def yearOfDay (n : Int) : Int :=
  let guess := 400 * (n + 719162) / 146097 + 1
  if n < daysBeforeYear guess then guess - 1
  else if daysBeforeYear (guess + 1) ≤ n then guess + 1
  else guess

/-- The month that the day with `dayOfYear` days before it falls into. -/
def monthOfDay (leap : Bool) (dayOfYear : Nat) : Nat :=
  1 + (List.range 11).countP fun i => daysBeforeMonth leap (i + 2) ≤ dayOfYear

/-- The year, month and day of the month of a day number. -/
def civil (n : Int) : Int × Nat × Nat :=
  let year := yearOfDay n
  let leap := isLeapYear year
  let dayOfYear := (n - daysBeforeYear year).toNat
  let month := monthOfDay leap dayOfYear
  (year, month, dayOfYear - daysBeforeMonth leap month + 1)

example : civil 0 = (1970, 1, 1) ∧ civil (-1) = (1969, 12, 31) ∧ civil 11016 = (2000, 2, 29) ∧
    civil (-719529) = (-1, 12, 31) := by decide +kernel

/-! ## Bounds -/

/-- A month ends within its year. -/
theorem daysBeforeMonth_add_daysInMonth_le (leap : Bool) {month : Nat}
    (h : 1 ≤ month ∧ month ≤ 12) :
    daysBeforeMonth leap month + daysInMonth leap month ≤ if leap then 366 else 365 := by
  obtain ⟨h1, h2⟩ := h
  have : month ∈ List.range 13 := List.mem_range.2 (by omega)
  revert h1
  revert month leap
  decide

namespace Date

/-- The dates of the calendar span these day numbers. -/
theorem dayNumber_mem (d : Date) : -96465292 ≤ d.dayNumber ∧ d.dayNumber ≤ 95026236 := by
  have hy := d.year_mem
  have hd := d.day_mem
  have hm := daysBeforeMonth_add_daysInMonth_le (isLeapYear d.year) d.month_mem
  simp only [firstYear, lastYear] at hy
  simp only [dayNumber, daysBeforeYear]
  by_cases h : d.year = 262142
  · have hl : isLeapYear d.year = false := by rw [h]; decide
    rw [hl] at hm hd ⊢
    simp only [Bool.false_eq_true, if_false] at hm
    omega
  · have : daysBeforeMonth (isLeapYear d.year) d.month +
        daysInMonth (isLeapYear d.year) d.month ≤ 366 := by
      refine Nat.le_trans hm ?_
      split <;> omega
    omega

end Date

end FilterTemplate
