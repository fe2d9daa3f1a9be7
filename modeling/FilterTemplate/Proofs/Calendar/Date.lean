/-
  FilterTemplate.Proofs.Calendar.Date

  The days of the calendar and its dates are the same thing twice. A year
  covers the days from its first to the first of the next, and so does a month
  within its year; a day is covered once on each level, so the date found for a
  day number is the date that has it. Later dates have greater day numbers,
  whichever of year, month and day tells them apart first.
-/
import FilterTemplate.Calendar.Date
import FilterTemplate.Proofs.Number.Comparison

namespace FilterTemplate

/-! ## Years -/

theorem daysBeforeYear_mono {year later : Int} (h : year ≤ later) :
    daysBeforeYear year ≤ daysBeforeYear later := by
  simp only [daysBeforeYear]
  omega

/-- A day falls into the year found for it. -/
theorem yearOfDay_spec (n : Int) :
    daysBeforeYear (yearOfDay n) ≤ n ∧ n < daysBeforeYear (yearOfDay n + 1) := by
  simp only [yearOfDay]
  split
  · simp only [daysBeforeYear] at *
    omega
  · split
    · simp only [daysBeforeYear] at *
      omega
    · simp only [daysBeforeYear] at *
      omega

/-- It falls into no other. -/
theorem yearOfDay_eq {n year : Int} (h : daysBeforeYear year ≤ n)
    (hnext : n < daysBeforeYear (year + 1)) : yearOfDay n = year := by
  obtain ⟨hfound, hfoundNext⟩ := yearOfDay_spec n
  rcases Int.lt_trichotomy (yearOfDay n) year with hlt | heq | hgt
  · have := daysBeforeYear_mono (show yearOfDay n + 1 ≤ year from hlt)
    omega
  · exact heq
  · have := daysBeforeYear_mono (show year + 1 ≤ yearOfDay n from hgt)
    omega

/-! ## Months -/

theorem daysInMonth_le (leap : Bool) (month : Nat) : daysInMonth leap month ≤ 31 := by
  unfold daysInMonth
  split
  · cases leap <;> decide
  all_goals decide

theorem daysBeforeMonth_add_one (leap : Bool) {month : Nat} (h : 1 ≤ month) :
    daysBeforeMonth leap (month + 1) = daysBeforeMonth leap month + daysInMonth leap month := by
  obtain ⟨m, rfl⟩ := Nat.exists_eq_add_of_le' h
  rfl

theorem daysBeforeMonth_mono (leap : Bool) {month later : Nat} (h : month ≤ later) :
    daysBeforeMonth leap month ≤ daysBeforeMonth leap later := by
  induction h with
  | refl => exact Nat.le_refl _
  | @step m _ ih =>
    refine Nat.le_trans ih ?_
    cases m with
    | zero => exact Nat.zero_le _
    | succ m => exact Nat.le_add_right _ _

/-- The months of a year fill it. -/
theorem daysBeforeYear_add_one (year : Int) :
    daysBeforeYear (year + 1) = daysBeforeYear year + daysBeforeMonth (isLeapYear year) 13 := by
  have hleap : isLeapYear year = true ↔ year % 4 = 0 ∧ (year % 100 ≠ 0 ∨ year % 400 = 0) := by
    simp [isLeapYear]
  by_cases h : isLeapYear year = true
  · have hmonths : daysBeforeMonth (isLeapYear year) 13 = 366 := by rw [h]; rfl
    rw [hmonths]
    rw [hleap] at h
    simp only [daysBeforeYear]
    omega
  · have hmonths : daysBeforeMonth (isLeapYear year) 13 = 365 := by
      rw [Bool.not_eq_true] at h
      rw [h]
      rfl
    rw [hmonths]
    rw [hleap] at h
    simp only [daysBeforeYear]
    omega

/-- Of the numbers below `n`, those below `k` are as many as `k` if `k` is not greater. -/
theorem countP_range_lt {k n : Nat} (h : k ≤ n) :
    (List.range n).countP (fun i => i < k) = k := by
  obtain ⟨m, rfl⟩ := Nat.exists_eq_add_of_le h
  have hbelow : (List.range k).countP (fun i => i < k) = k := by
    rw [List.countP_eq_length.2 (by simp), List.length_range]
  have habove : ((List.range m).map (k + ·)).countP (fun i => i < k) = 0 := by
    rw [List.countP_eq_zero]
    simp
  rw [List.range_add, List.countP_append, hbelow, habove, Nat.add_zero]

/-- The month found for a day of the year is the one that covers it. -/
theorem monthOfDay_eq {leap : Bool} {dayOfYear month : Nat} (hmonth : 1 ≤ month ∧ month ≤ 12)
    (h : daysBeforeMonth leap month ≤ dayOfYear)
    (hnext : dayOfYear < daysBeforeMonth leap (month + 1)) : monthOfDay leap dayOfYear = month := by
  -- The months counted are those that begin no later than this one.
  have hcount : ∀ i : Nat,
      decide (daysBeforeMonth leap (i + 2) ≤ dayOfYear) = decide (i < month - 1) := by
    intro i
    rw [decide_eq_decide]
    constructor
    · intro hle
      by_contra hge
      have := daysBeforeMonth_mono leap (show month + 1 ≤ i + 2 by omega)
      omega
    · intro hlt
      exact Nat.le_trans (daysBeforeMonth_mono leap (by omega)) h
  simp only [monthOfDay, hcount]
  rw [countP_range_lt (by omega)]
  omega

/-- Every day of a year is covered by a month. -/
theorem exists_month {leap : Bool} {dayOfYear : Nat} (h : dayOfYear < daysBeforeMonth leap 13) :
    ∃ month, (1 ≤ month ∧ month ≤ 12) ∧ daysBeforeMonth leap month ≤ dayOfYear ∧
      dayOfYear < daysBeforeMonth leap (month + 1) := by
  -- By induction on the months that may be needed.
  have hfirst : ∀ last, last ≤ 12 → dayOfYear < daysBeforeMonth leap (last + 1) →
      ∃ month, (1 ≤ month ∧ month ≤ 12) ∧ daysBeforeMonth leap month ≤ dayOfYear ∧
        dayOfYear < daysBeforeMonth leap (month + 1) := by
    intro last hlast hlt
    induction last with
    | zero => exact absurd hlt (Nat.not_lt_zero _)
    | succ last ih =>
      by_cases hbefore : dayOfYear < daysBeforeMonth leap (last + 1)
      · exact ih (by omega) hbefore
      · exact ⟨last + 1, ⟨by omega, hlast⟩, Nat.le_of_not_lt hbefore, hlt⟩
  exact hfirst 12 (Nat.le_refl 12) h

/-! ## Dates -/

namespace Date

theorem month_lt (d : Date) : d.month < 100 := by
  have := d.month_mem
  omega

theorem day_lt (d : Date) : d.day < 100 := by
  have hday := d.day_mem
  have hmonth := daysInMonth_le (isLeapYear d.year) d.month
  omega

/-- The days of the year before a date. -/
def dayOfYear (d : Date) : Nat :=
  daysBeforeMonth (isLeapYear d.year) d.month + (d.day - 1)

theorem dayNumber_eq (d : Date) : d.dayNumber = daysBeforeYear d.year + d.dayOfYear := by
  rw [dayNumber, dayOfYear, Int.natCast_add]
  omega

/-- A date falls into its month. -/
theorem dayOfYear_mem (d : Date) :
    daysBeforeMonth (isLeapYear d.year) d.month ≤ d.dayOfYear ∧
      d.dayOfYear < daysBeforeMonth (isLeapYear d.year) (d.month + 1) := by
  have hday := d.day_mem
  rw [dayOfYear, daysBeforeMonth_add_one _ d.month_mem.1]
  omega

/-- A date falls into its year. -/
theorem dayNumber_mem_year (d : Date) :
    daysBeforeYear d.year ≤ d.dayNumber ∧ d.dayNumber < daysBeforeYear (d.year + 1) := by
  have hmonth := d.month_mem
  have hday := d.dayOfYear_mem.2
  have hlast := daysBeforeMonth_mono (isLeapYear d.year) (show d.month + 1 ≤ 13 by omega)
  rw [daysBeforeYear_add_one, dayNumber_eq]
  omega

/-- The date of a date's day number is the date. -/
theorem civil_dayNumber (d : Date) : civil d.dayNumber = (d.year, d.month, d.day) := by
  have hyear : yearOfDay d.dayNumber = d.year :=
    yearOfDay_eq d.dayNumber_mem_year.1 d.dayNumber_mem_year.2
  have hrest : (d.dayNumber - daysBeforeYear d.year).toNat = d.dayOfYear := by
    rw [dayNumber_eq]
    omega
  have hmonth : monthOfDay (isLeapYear d.year) d.dayOfYear = d.month :=
    monthOfDay_eq d.month_mem d.dayOfYear_mem.1 d.dayOfYear_mem.2
  have hday : d.dayOfYear - daysBeforeMonth (isLeapYear d.year) d.month + 1 = d.day := by
    have := d.day_mem
    rw [dayOfYear]
    omega
  simp only [civil, hyear, hrest, hmonth, hday]

/-- Every day number of the calendar has a date. -/
theorem exists_dayNumber_eq {n : Int} (h : -96465292 ≤ n ∧ n ≤ 95026236) :
    ∃ d : Date, d.dayNumber = n := by
  obtain ⟨hyear, hnext⟩ := yearOfDay_spec n
  have hrange : firstYear ≤ yearOfDay n ∧ yearOfDay n ≤ lastYear := by
    constructor
    · by_contra hbefore
      have hmono := daysBeforeYear_mono (show yearOfDay n + 1 ≤ firstYear by omega)
      have hfirst : daysBeforeYear firstYear = -96465292 := by decide
      omega
    · by_contra hbehind
      have hmono := daysBeforeYear_mono (show lastYear + 1 ≤ yearOfDay n by omega)
      have hlast : daysBeforeYear (lastYear + 1) = 95026237 := by decide
      omega
  have hlength : (n - daysBeforeYear (yearOfDay n)).toNat <
      daysBeforeMonth (isLeapYear (yearOfDay n)) 13 := by
    rw [daysBeforeYear_add_one] at hnext
    omega
  obtain ⟨month, hmonth, hfirst, hlast⟩ := exists_month hlength
  rw [daysBeforeMonth_add_one _ hmonth.1] at hlast
  let d : Date :=
    { year := yearOfDay n
      month := month
      day := (n - daysBeforeYear (yearOfDay n)).toNat -
        daysBeforeMonth (isLeapYear (yearOfDay n)) month + 1
      year_mem := hrange
      month_mem := hmonth
      day_mem := by omega }
  refine ⟨d, ?_⟩
  rw [dayNumber]
  show daysBeforeYear (yearOfDay n) + (daysBeforeMonth (isLeapYear (yearOfDay n)) month : Int) +
    ((n - daysBeforeYear (yearOfDay n)).toNat -
      daysBeforeMonth (isLeapYear (yearOfDay n)) month + 1 - 1 : Nat) = n
  omega

/-! ## Order -/

theorem dayOfYear_lt_of_month_lt {d e : Date} (h : d.year = e.year) (hlt : d.month < e.month) :
    d.dayOfYear < e.dayOfYear := by
  have hmono := daysBeforeMonth_mono (isLeapYear e.year) (show d.month + 1 ≤ e.month from hlt)
  exact Nat.lt_of_lt_of_le (h ▸ d.dayOfYear_mem.2) (Nat.le_trans hmono e.dayOfYear_mem.1)

/-- Within a year the month decides before the day. -/
theorem compare_dayOfYear {d e : Date} (h : d.year = e.year) :
    compare d.dayOfYear e.dayOfYear = (compare d.month e.month).then (compare d.day e.day) := by
  refine compare_eq_then (dayOfYear_lt_of_month_lt h) (fun heq => ?_)
    (dayOfYear_lt_of_month_lt h.symm)
  have hd := d.day_mem
  have he := e.day_mem
  rw [dayOfYear, dayOfYear, h, heq]
  exact compare_congr (by omega) (by omega) (by omega)

theorem dayNumber_lt_of_year_lt {d e : Date} (hlt : d.year < e.year) :
    d.dayNumber < e.dayNumber := by
  have hmono := daysBeforeYear_mono (show d.year + 1 ≤ e.year from hlt)
  exact Int.lt_of_lt_of_le d.dayNumber_mem_year.2 (Int.le_trans hmono e.dayNumber_mem_year.1)

/-- Days follow each other as their dates do. -/
theorem compare_dayNumber (d e : Date) :
    compare d.dayNumber e.dayNumber =
      (compare d.year e.year).then ((compare d.month e.month).then (compare d.day e.day)) := by
  refine compare_eq_then dayNumber_lt_of_year_lt (fun heq => ?_) dayNumber_lt_of_year_lt
  rw [dayNumber_eq, dayNumber_eq, heq, ← compare_dayOfYear heq]
  exact compare_congr (by omega) (by omega) (by omega)

end Date

end FilterTemplate
