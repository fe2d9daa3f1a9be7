/-
  FilterTemplate.Proofs.Calendar.Instant

  The fields of an instant and its text. The day of an instant is that of a
  date, its clock counts the seconds of a day, and what is written of them are
  digits behind marks; so the text has no quotes, and the literal of an instant
  is the text between quotes.
-/
import FilterTemplate.Proofs.Calendar.Date
import FilterTemplate.Proofs.Number.Padding
import FilterTemplate.Value.Literal

namespace FilterTemplate

namespace Instant

/-! ## Fields -/

/-- The day of an instant is that of a date. -/
theorem exists_date (t : Instant) :
    ∃ d : Date, d.dayNumber = t.day ∧ civil t.day = (d.year, d.month, d.day) := by
  have hseconds := t.seconds_mem
  have hday : -96465292 ≤ t.day ∧ t.day ≤ 95026236 := by
    rw [day]
    omega
  obtain ⟨d, hd⟩ := Date.exists_dayNumber_eq hday
  exact ⟨d, hd, hd ▸ d.civil_dayNumber⟩

theorem secondOfDay_lt (t : Instant) : t.secondOfDay < 86400 := by
  rw [secondOfDay]
  omega

/-- Only the last second of a minute goes on into a leap second. -/
theorem secondOfDay_mod_of_leap (t : Instant) (h : 1000000000 ≤ t.nanos) :
    t.secondOfDay % 60 = 59 := by
  have hleap := t.leap h
  rw [secondOfDay]
  omega

theorem millis_lt (t : Instant) : t.millis < 1000 := by
  rw [millis]
  omega

/-! ## Text -/

theorem quote_not_mem_text {separator : Char} (h : separator ≠ '\'') (t : Instant) :
    '\'' ∉ t.text separator := by
  have hdigits : ∀ width n, '\'' ∉ zeroPadded width n := fun width n =>
    (writesNumber_zeroPadded width n).not_mem (by decide)
  have hyear := (spellsYear_yearText (civil t.day).1).quote_not_mem
  simp [text, hdigits, hyear, h.symm]

end Instant

/-- The literal of an instant is its text between quotes. -/
theorem Value.literal_timestamp (t : Instant) :
    (Value.timestamp t).literal = '\'' :: (t.text ' ' ++ ['\'']) := by
  show Text.quoted (t.text ' ') = _
  rw [Text.quoted, Text.escapeQuotes_eq_self (t.quote_not_mem_text (by decide))]

end FilterTemplate
