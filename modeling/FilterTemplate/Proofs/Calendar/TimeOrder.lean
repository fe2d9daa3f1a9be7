/-
  FilterTemplate.Proofs.Calendar.TimeOrder

  Literals of instants sort like time. Where the year has four digits, every
  field of such a literal has a fixed width and stands behind a fixed mark, so
  the first field that differs decides: the year, the month and the day as the
  days follow each other, the time fields as the seconds of the day do. A leap
  second belongs to the last second of its minute, whose sixtieth it shows as.
-/
import FilterTemplate.Proofs.Calendar.Instant
import Mathlib.Data.List.Forall2

namespace FilterTemplate

open Text (bytes)

/-! ## Fields of fixed widths -/

/-- The numbers in the widths of a shape, each behind its mark, and a text behind all. -/
def layOut (tail : List Char) : (shape : List (Char × Nat)) → List Nat → List Char
  | (mark, width) :: shape, n :: ns => mark :: (zeroPadded width n ++ layOut tail shape ns)
  | _, _ => tail

/-- The numbers have no more digits than the shape has places for. -/
def FitsShape : (shape : List (Char × Nat)) → List Nat → Prop :=
  List.Forall₂ fun field n => 0 < field.2 ∧ n < Nat.pow 10 field.2

/-- Numbers in the widths of one shape compare as text like the lists of the numbers. -/
theorem compare_bytes_layOut {tail : List Char} {shape : List (Char × Nat)} {ms ns : List Nat}
    (hm : FitsShape shape ms) (hn : FitsShape shape ns) :
    compare (bytes (layOut tail shape ms)) (bytes (layOut tail shape ns)) = compare ms ns := by
  induction hm generalizing ns with
  | nil =>
    cases hn
    exact Std.compare_self
  | @cons field m shape ms hfield _ ih =>
    obtain ⟨mark, width⟩ := field
    cases hn with
    | @cons _ n _ ns hfield' hrest =>
      have hwidth : (zeroPadded width m).length = (zeroPadded width n).length := by
        rw [length_zeroPadded hfield.1 hfield.2, length_zeroPadded hfield'.1 hfield'.2]
      have hwrites := writesNumber_zeroPadded width m
      have hwrites' := writesNumber_zeroPadded width n
      have hlength : (bytes (zeroPadded width m)).length = (bytes (zeroPadded width n)).length := by
        rw [hwrites.length_bytes, hwrites'.length_bytes, hwidth]
      have hmark : ∀ k ks, bytes (layOut tail ((mark, width) :: shape) (k :: ks)) =
          bytes [mark] ++ (bytes (zeroPadded width k) ++ bytes (layOut tail shape ks)) := by
        intro k ks
        rw [← Text.bytes_append, ← Text.bytes_append]
        rfl
      rw [hmark, hmark, compare_append rfl, Std.compare_self, Ordering.eq_then,
        compare_append hlength, hwrites.compare_bytes hwrites' hwidth, ih hrest,
        List.compare_cons_cons]

/-! ## Fields of an instant -/

namespace Instant

/-- The fields of an instant from the year to the milliseconds. -/
def fields (t : Instant) : List Nat :=
  [(civil t.day).1.toNat, (civil t.day).2.1, (civil t.day).2.2, t.clock.1, t.clock.2.1,
    t.clock.2.2, t.millis]

/-- The widths of the fields and the marks in front of them. -/
def shape : List (Char × Nat) :=
  [('\'', 4), ('-', 2), ('-', 2), (' ', 2), (':', 2), (':', 2), ('.', 3)]

theorem fitsShape_fields {t : Instant} (hyear : (civil t.day).1 ≤ 9999) :
    FitsShape shape t.fields := by
  obtain ⟨d, -, hcivil⟩ := t.exists_date
  have hsecond := t.secondOfDay_lt
  have hnanos := t.nanos_lt
  have hyears : (civil t.day).1.toNat < 10000 := by omega
  have hmonths : (civil t.day).2.1 < 100 := hcivil ▸ d.month_lt
  have hdays : (civil t.day).2.2 < 100 := hcivil ▸ d.day_lt
  have hhours : t.secondOfDay / 3600 < 100 := by omega
  have hminutes : t.secondOfDay / 60 % 60 < 100 := by omega
  have hseconds : t.secondOfDay % 60 + t.nanos / 1000000000 < 100 := by omega
  exact .cons ⟨by decide, hyears⟩ (.cons ⟨by decide, hmonths⟩ (.cons ⟨by decide, hdays⟩
    (.cons ⟨by decide, hhours⟩ (.cons ⟨by decide, hminutes⟩ (.cons ⟨by decide, hseconds⟩
      (.cons ⟨by decide, t.millis_lt⟩ .nil))))))

/-! ## Order of the fields -/

/-- Seconds compare by the day and then within the day. -/
theorem compare_seconds (t u : Instant) :
    compare t.seconds u.seconds =
      (compare t.day u.day).then (compare t.secondOfDay u.secondOfDay) := by
  refine compare_eq_then ?_ (fun heq => compare_congr ?_ ?_ ?_) ?_
  all_goals
    simp only [day, secondOfDay] at *
    omega

/-- Within a minute the second shown and the milliseconds compare like the second and its
milliseconds, a leap second counted on from the last second. -/
theorem compare_second_millis (t u : Instant) :
    (compare t.clock.2.2 u.clock.2.2).then (compare t.millis u.millis) =
      (compare (t.secondOfDay % 60) (u.secondOfDay % 60)).then
        (compare (t.nanos / 1000000) (u.nanos / 1000000)) := by
  -- Both sides count the milliseconds of the minute.
  have hcount : ∀ v : Instant,
      1000 * v.clock.2.2 + v.millis = 1000 * (v.secondOfDay % 60) + v.nanos / 1000000 := by
    intro v
    simp only [clock, millis]
    omega
  have hless : ∀ v w : Instant, v.secondOfDay % 60 < w.secondOfDay % 60 →
      1000 * (v.secondOfDay % 60) + v.nanos / 1000000 <
        1000 * (w.secondOfDay % 60) + w.nanos / 1000000 := by
    intro v w hlt
    have hplain : v.nanos < 1000000000 := by
      by_contra hge
      have hlast := v.secondOfDay_mod_of_leap (Nat.le_of_not_lt hge)
      omega
    omega
  rw [← compare_mul_add t.millis_lt u.millis_lt, hcount, hcount]
  refine compare_eq_then (hless t u) (fun heq => ?_) (hless u t)
  rw [heq]
  exact compare_congr (by omega) (by omega) (by omega)

/-- The fields of the clock compare like the seconds of the day and their milliseconds. -/
theorem compare_clock (t u : Instant) :
    (compare t.clock.1 u.clock.1).then ((compare t.clock.2.1 u.clock.2.1).then
        ((compare t.clock.2.2 u.clock.2.2).then (compare t.millis u.millis))) =
      (compare t.secondOfDay u.secondOfDay).then
        (compare (t.nanos / 1000000) (u.nanos / 1000000)) := by
  have hminutes : compare (t.secondOfDay / 60) (u.secondOfDay / 60) =
      (compare t.clock.1 u.clock.1).then (compare t.clock.2.1 u.clock.2.1) := by
    rw [compare_div_mod (by decide : 0 < 60), Nat.div_div_eq_div_mul, Nat.div_div_eq_div_mul]
    rfl
  rw [compare_second_millis, ← Ordering.then_assoc, ← hminutes, ← Ordering.then_assoc,
    ← compare_div_mod (by decide)]

/-- The fields of instants whose years are not negative compare like the instants. -/
theorem compare_fields {t u : Instant} (ht : 0 ≤ (civil t.day).1) (hu : 0 ≤ (civil u.day).1) :
    compare t.fields u.fields =
      (compare t.seconds u.seconds).then (compare (t.nanos / 1000000) (u.nanos / 1000000)) := by
  obtain ⟨d, hd, hcivil⟩ := t.exists_date
  obtain ⟨e, he, hcivil'⟩ := u.exists_date
  have hyear : compare (civil t.day).1.toNat (civil u.day).1.toNat =
      compare (civil t.day).1 (civil u.day).1 :=
    compare_congr (by omega) (by omega) (by omega)
  have hday : compare t.day u.day = (compare (civil t.day).1 (civil u.day).1).then
      ((compare (civil t.day).2.1 (civil u.day).2.1).then
        (compare (civil t.day).2.2 (civil u.day).2.2)) := by
    rw [hcivil, hcivil', ← hd, ← he, Date.compare_dayNumber]
  rw [compare_seconds, hday]
  have hend : compare ([] : List Nat) [] = .eq := rfl
  simp only [fields, List.compare_cons_cons, hyear, hend, Ordering.then_eq, compare_clock,
    Ordering.then_assoc]

/-! ## Literals -/

/-- Where the year has four digits, the literal is the fields in their widths. -/
theorem literal_eq_layOut {t : Instant} (h : 0 ≤ (civil t.day).1 ∧ (civil t.day).1 ≤ 9999) :
    (Value.timestamp t).literal = layOut ['Z', '\''] shape t.fields := by
  have hyear : yearText (civil t.day).1 = zeroPadded 4 (civil t.day).1.toNat := by
    rw [yearText, if_pos h]
  rw [Value.literal_timestamp, text]
  simp only [hyear, List.append_assoc, List.cons_append, List.nil_append]
  rfl

/-- The bytes of the literals of instants whose years have four digits compare like the instants to
the millisecond, and the literals are equal just where the millisecond is the same. -/
theorem compare_literal_timestamp {a b : Instant}
    (ha : 0 ≤ (civil a.day).1 ∧ (civil a.day).1 ≤ 9999)
    (hb : 0 ≤ (civil b.day).1 ∧ (civil b.day).1 ≤ 9999) :
    compare (bytes (Value.timestamp a).literal) (bytes (Value.timestamp b).literal) =
        (compare a.seconds b.seconds).then (compare (a.nanos / 1000000) (b.nanos / 1000000)) ∧
      ((Value.timestamp a).literal = (Value.timestamp b).literal ↔
        a.seconds = b.seconds ∧ a.nanos / 1000000 = b.nanos / 1000000) := by
  have hfields := compare_fields ha.1 hb.1
  have hbytes : compare (bytes (Value.timestamp a).literal) (bytes (Value.timestamp b).literal) =
      (compare a.seconds b.seconds).then (compare (a.nanos / 1000000) (b.nanos / 1000000)) := by
    rw [literal_eq_layOut ha, literal_eq_layOut hb,
      compare_bytes_layOut (fitsShape_fields ha.2) (fitsShape_fields hb.2), hfields]
  refine ⟨hbytes, fun heq => ?_, fun ⟨hseconds, hmillis⟩ => ?_⟩
  · rw [heq, Std.compare_self, eq_comm, Ordering.then_eq_eq] at hbytes
    exact hbytes.imp Std.LawfulEqOrd.eq_of_compare Std.LawfulEqOrd.eq_of_compare
  · rw [hseconds, hmillis, Std.compare_self, Std.compare_self] at hfields
    rw [literal_eq_layOut ha, literal_eq_layOut hb, Std.LawfulEqOrd.eq_of_compare hfields]

theorem compare_literal_timestamp_of_leap_second :
    let leap : Instant := ⟨1483228799, 1500000000, by decide, by decide, by decide⟩
    let midnight : Instant := ⟨1483228800, 0, by decide, by decide, by decide⟩
    (0 ≤ (civil leap.day).1 ∧ (civil leap.day).1 ≤ 9999) ∧
      (0 ≤ (civil midnight.day).1 ∧ (civil midnight.day).1 ≤ 9999) ∧
      (Value.timestamp leap).literal = "'2016-12-31 23:59:60.500Z'".toList ∧
      (Value.timestamp midnight).literal = "'2017-01-01 00:00:00.000Z'".toList ∧
      compare (bytes (Value.timestamp leap).literal) (bytes (Value.timestamp midnight).literal) =
        .lt := by
  intro leap midnight
  have hleap : 0 ≤ (civil leap.day).1 ∧ (civil leap.day).1 ≤ 9999 := by decide +kernel
  have hmidnight : 0 ≤ (civil midnight.day).1 ∧ (civil midnight.day).1 ≤ 9999 := by
    decide +kernel
  exact ⟨hleap, hmidnight, by decide +kernel, by decide +kernel,
    (compare_literal_timestamp hleap hmidnight).1.trans (by decide)⟩

end Instant

end FilterTemplate
