/-
  FilterTemplate.Proofs.Calendar.DateLiteral

  The literal of a date shows the date. A date stands for its first instant,
  and the date of that instant is found again; so the literal has the date's
  year, month and day, and they can be read off it.
-/
import FilterTemplate.Proofs.Calendar.Instant
import FilterTemplate.Value.Datum

namespace FilterTemplate

/-! ## The first instant of a date -/

namespace Instant

theorem day_ofDate (d : Date) : (ofDate d).day = d.dayNumber :=
  Int.mul_ediv_cancel d.dayNumber (by decide)

theorem nanos_ofDate (d : Date) : (ofDate d).nanos = 0 := rfl

theorem clock_ofDate (d : Date) : (ofDate d).clock = (0, 0, 0) := by
  have hzero : (ofDate d).seconds % 86400 = 0 := Int.mul_emod_left _ _
  rw [clock, secondOfDay, hzero, nanos_ofDate]
  rfl

theorem millis_ofDate (d : Date) : (ofDate d).millis = 0 := by
  rw [millis, nanos_ofDate]

/-- The text of a date's first instant has the date and no time. -/
theorem text_ofDate (separator : Char) (d : Date) :
    (ofDate d).text separator = yearText d.year ++ '-' :: zeroPadded 2 d.month ++
      '-' :: zeroPadded 2 d.day ++ separator :: "00:00:00.000Z".toList := by
  rw [text, day_ofDate, d.civil_dayNumber, clock_ofDate, millis_ofDate]
  simp only [List.append_assoc]
  rfl

end Instant

/-! ## Literals -/

namespace Datum

theorem literal_date (d : Date) :
    (date d).toValue.literal = '\'' :: (yearText d.year ++ '-' :: zeroPadded 2 d.month ++
      '-' :: zeroPadded 2 d.day ++ " 00:00:00.000Z'".toList) := by
  rw [toValue, Value.literal_timestamp, Instant.text_ofDate, List.append_assoc _ _ ['\'']]
  rfl

theorem toJson_date (d : Date) :
    (date d).toValue.toJson = .string (String.ofList (yearText d.year ++
      '-' :: zeroPadded 2 d.month ++ '-' :: zeroPadded 2 d.day ++ "T00:00:00.000Z".toList)) := by
  rw [toValue, Value.toJson, Instant.isoText, Instant.text_ofDate]
  rfl

/-- The date is read off its literal. -/
theorem literal_date_injective : Function.Injective fun d : Date => (date d).toValue.literal := by
  intro d e heq
  simp only [literal_date] at heq
  have hwidth : ∀ {m n : Nat}, m < 100 → n < 100 →
      ('-' :: zeroPadded 2 m).length = ('-' :: zeroPadded 2 n).length := by
    intro m n hm hn
    rw [List.length_cons, List.length_cons, length_zeroPadded (by decide) hm,
      length_zeroPadded (by decide) hn]
  -- All parts behind the year have a fixed length, so the literals are cut at the same places.
  have hfields := List.append_cancel_right (List.cons.inj heq).2
  obtain ⟨hrest, hdays⟩ := List.append_inj' hfields (hwidth d.day_lt e.day_lt)
  obtain ⟨hyears, hmonths⟩ := List.append_inj' hrest (hwidth d.month_lt e.month_lt)
  have hyear : d.year = e.year :=
    (spellsYear_yearText d.year).unique (hyears ▸ spellsYear_yearText e.year)
  have hmonth : d.month = e.month :=
    (writesNumber_zeroPadded 2 d.month).unique
      ((List.cons.inj hmonths).2 ▸ writesNumber_zeroPadded 2 e.month)
  have hday : d.day = e.day :=
    (writesNumber_zeroPadded 2 d.day).unique
      ((List.cons.inj hdays).2 ▸ writesNumber_zeroPadded 2 e.day)
  obtain ⟨⟩ := d
  obtain ⟨⟩ := e
  simp only at hyear hmonth hday
  subst hyear hmonth hday
  rfl

/-- The literal of a date shows its year, month and day and the time of midnight, and so does its
JSON form. Dates that differ have literals that differ. -/
theorem literal_date_shows_date :
    (∀ d : Date, ∃ year month day, SpellsYear d.year year ∧
      (month.length = 2 ∧ WritesNumber d.month month) ∧ (day.length = 2 ∧ WritesNumber d.day day) ∧
      (date d).toValue.literal =
        '\'' :: (year ++ '-' :: month ++ '-' :: day ++ " 00:00:00.000Z'".toList) ∧
      (date d).toValue.toJson =
        .string (String.ofList (year ++ '-' :: month ++ '-' :: day ++ "T00:00:00.000Z".toList))) ∧
      Function.Injective fun d : Date => (date d).toValue.literal := by
  refine ⟨fun d => ?_, literal_date_injective⟩
  exact ⟨yearText d.year, zeroPadded 2 d.month, zeroPadded 2 d.day, spellsYear_yearText d.year,
    ⟨length_zeroPadded (by decide) d.month_lt, writesNumber_zeroPadded 2 d.month⟩,
    ⟨length_zeroPadded (by decide) d.day_lt, writesNumber_zeroPadded 2 d.day⟩,
    literal_date d, toJson_date d⟩

example : (Date.ofFields? (-4) 2 29).map (fun d => (date d).toValue.literal) =
    some "'-0004-02-29 00:00:00.000Z'".toList := by decide +kernel

end Datum

end FilterTemplate
