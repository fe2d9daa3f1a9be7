/-
  FilterTemplate.Proofs.Number.Padding

  Numbers with zeros in front. The zeros change neither the number that is read
  nor that there are only digits, and they make numbers of few digits equally
  wide. Digits of one width compare as text like the numbers they write, since
  the first digit that differs decides either way.
-/
import FilterTemplate.Calendar.Instant
import FilterTemplate.Calendar.Spelling
import FilterTemplate.Proofs.Number.Comparison

namespace FilterTemplate

/-! ## Zeros in front -/

theorem digitsValue_eq_ofDigitChars (s : List Char) :
    digitsValue s = Nat.ofDigitChars 10 s 0 := by
  rw [digitsValue, Nat.ofDigitChars_eq_foldl]

theorem writesNumber_zeroPadded (width n : Nat) : WritesNumber n (zeroPadded width n) := by
  constructor
  · rw [zeroPadded, List.forall_mem_append]
    refine ⟨fun c hc => ?_, fun c hc => ?_⟩
    · rw [List.eq_of_mem_replicate hc]
      decide
    · exact Nat.isDigit_of_mem_toDigits (by decide) (by decide) hc
  · rw [digitsValue_eq_ofDigitChars, zeroPadded, Nat.ofDigitChars_append,
      Nat.ofDigitChars_replicate_zero, Nat.mul_zero, Nat.ofDigitChars_ten_toDigits]

theorem length_zeroPadded {width n : Nat} (hwidth : 0 < width) (h : n < Nat.pow 10 width) :
    (zeroPadded width n).length = width := by
  have hdigits := (Nat.length_toDigits_le_iff (by decide : 1 < 10) hwidth).2 h
  rw [zeroPadded, List.length_append, List.length_replicate]
  omega

theorem writesWide_zeroPadded {width n : Nat} (h : 0 < n) :
    WritesWide width n (zeroPadded width n) where
  toWritesNumber := writesNumber_zeroPadded width n
  width_le := by
    rw [zeroPadded, List.length_append, List.length_replicate]
    omega
  head_ne := by
    -- Where the digits are more than the width, there are no zeros in front of them.
    intro hlt
    rw [zeroPadded, List.length_append, List.length_replicate] at hlt
    have hnone : width - (Nat.toDigits 10 n).length = 0 := by omega
    rw [zeroPadded, hnone]
    exact head?_toDigits_ne_zero h

/-- A year is spelled as it is written. -/
theorem spellsYear_yearText (year : Int) : SpellsYear year (yearText year) := by
  rw [yearText]
  by_cases hplain : 0 ≤ year ∧ year ≤ 9999
  · have hyear : ((year.toNat : Nat) : Int) = year := Int.toNat_of_nonneg hplain.1
    have hfour : year.toNat < 10000 := by omega
    rw [if_pos hplain]
    have hspells := SpellsYear.fourDigits (Nat.le_of_lt_succ hfour)
      (length_zeroPadded (by decide) hfour) (writesNumber_zeroPadded 4 year.toNat)
    rwa [hyear] at hspells
  · rw [if_neg hplain]
    by_cases hnegative : year < 0
    · have hyear : -((year.natAbs : Nat) : Int) = year := by omega
      rw [if_pos hnegative]
      have hspells := SpellsYear.negative (by omega)
        (writesWide_zeroPadded (show 0 < year.natAbs by omega))
      rwa [hyear] at hspells
    · have hyear : ((year.natAbs : Nat) : Int) = year := by omega
      rw [if_neg hnegative]
      have hspells := SpellsYear.positive (by omega)
        (writesWide_zeroPadded (show 0 < year.natAbs by omega))
      rwa [hyear] at hspells

/-! ## Reading back -/

theorem WritesNumber.unique {m n : Nat} {s : List Char} (hm : WritesNumber m s)
    (hn : WritesNumber n s) : m = n :=
  hm.digitsValue_eq.symm.trans hn.digitsValue_eq

theorem WritesNumber.not_mem {n : Nat} {s : List Char} (h : WritesNumber n s) {c : Char}
    (hc : c.isDigit = false) : c ∉ s := by
  intro hmem
  rw [h.isDigit c hmem] at hc
  exact absurd hc (by decide)

/-- A text spells one year at most. -/
theorem SpellsYear.unique {year other : Int} {s : List Char} (h : SpellsYear year s)
    (hother : SpellsYear other s) : year = other := by
  cases h with
  | fourDigits _ _ hwrites =>
    cases hother with
    | fourDigits _ _ hwrites' => rw [hwrites.unique hwrites']
    | positive => exact absurd List.mem_cons_self (hwrites.not_mem (by decide))
    | negative => exact absurd List.mem_cons_self (hwrites.not_mem (by decide))
  | positive _ hwrites =>
    cases hother with
    | fourDigits _ _ hwrites' =>
      exact absurd List.mem_cons_self (hwrites'.not_mem (by decide))
    | positive _ hwrites' => rw [hwrites.toWritesNumber.unique hwrites'.toWritesNumber]
  | negative _ hwrites =>
    cases hother with
    | fourDigits _ _ hwrites' =>
      exact absurd List.mem_cons_self (hwrites'.not_mem (by decide))
    | negative _ hwrites' => rw [hwrites.toWritesNumber.unique hwrites'.toWritesNumber]

theorem SpellsYear.quote_not_mem {year : Int} {s : List Char} (h : SpellsYear year s) :
    '\'' ∉ s := by
  cases h with
  | fourDigits _ _ hwrites => exact hwrites.not_mem (by decide)
  | positive _ hwrites =>
    rw [List.mem_cons, not_or]
    exact ⟨by decide, hwrites.not_mem (by decide)⟩
  | negative _ hwrites =>
    rw [List.mem_cons, not_or]
    exact ⟨by decide, hwrites.not_mem (by decide)⟩

/-! ## Comparing as text -/

namespace Text

theorem bytes_eq_flatMap (s : List Char) : bytes s = s.flatMap String.utf8EncodeChar :=
  List.toList_data_toByteArray

theorem bytes_append (s t : List Char) : bytes (s ++ t) = bytes s ++ bytes t := by
  rw [bytes_eq_flatMap, bytes_eq_flatMap, bytes_eq_flatMap, List.flatMap_append]

theorem bytes_cons_of_isDigit {c : Char} (h : c.isDigit = true) (s : List Char) :
    bytes (c :: s) = UInt8.ofNat c.toNat :: bytes s := by
  have hle : c.val.toNat ≤ 127 := Nat.le_trans (Char.isDigit_iff_toNat.1 h).2 (by decide)
  rw [bytes_eq_flatMap, bytes_eq_flatMap, List.flatMap_cons, String.utf8EncodeChar, if_pos hle]
  rfl

end Text

/-- Digits of one width compare as text like the numbers they write, behind any two numbers that
were written before. -/
theorem compare_ofDigitChars {s t : List Char} (hs : ∀ c ∈ s, c.isDigit = true)
    (ht : ∀ c ∈ t, c.isDigit = true) (hlength : s.length = t.length) (m n : Nat) :
    compare (Nat.ofDigitChars 10 s m) (Nat.ofDigitChars 10 t n) =
      (compare m n).then (compare (Text.bytes s) (Text.bytes t)) := by
  induction s generalizing t m n with
  | nil =>
    rw [List.length_nil] at hlength
    rw [List.eq_nil_of_length_eq_zero hlength.symm]
    exact Ordering.then_eq.symm
  | cons c s ih =>
    cases t with
    | nil => exact absurd hlength (by simp)
    | cons d t =>
      rw [List.length_cons, List.length_cons, Nat.add_right_cancel_iff] at hlength
      rw [List.forall_mem_cons] at hs ht
      have hc : 48 ≤ c.toNat ∧ c.toNat ≤ 57 := Char.isDigit_iff_toNat.1 hs.1
      have hd : 48 ≤ d.toNat ∧ d.toNat ≤ 57 := Char.isDigit_iff_toNat.1 ht.1
      have hbytes : compare (UInt8.ofNat c.toNat) (UInt8.ofNat d.toNat) =
          compare (c.toNat - '0'.toNat) (d.toNat - '0'.toNat) := by
        have hzero : '0'.toNat = 48 := rfl
        have hsize : UInt8.size = 256 := rfl
        rw [UInt8.compare_eq_toNat_compare_toNat, UInt8.toNat_ofNat_of_lt' (by omega),
          UInt8.toNat_ofNat_of_lt' (by omega)]
        exact compare_congr (by omega) (by omega) (by omega)
      have hplace : ∀ x : Char, 48 ≤ x.toNat ∧ x.toNat ≤ 57 → x.toNat - '0'.toNat < 10 := by
        intro x hx
        have hzero : '0'.toNat = 48 := rfl
        omega
      rw [Nat.ofDigitChars_cons, Nat.ofDigitChars_cons, ih hs.2 ht.2 hlength,
        compare_mul_add (hplace c hc) (hplace d hd), Text.bytes_cons_of_isDigit hs.1,
        Text.bytes_cons_of_isDigit ht.1, List.compare_cons_cons, hbytes, Ordering.then_assoc]

theorem WritesNumber.compare_bytes {m n : Nat} {s t : List Char} (hs : WritesNumber m s)
    (ht : WritesNumber n t) (hlength : s.length = t.length) :
    compare (Text.bytes s) (Text.bytes t) = compare m n := by
  rw [← hs.digitsValue_eq, ← ht.digitsValue_eq, digitsValue_eq_ofDigitChars,
    digitsValue_eq_ofDigitChars, compare_ofDigitChars hs.isDigit ht.isDigit hlength]
  rfl

theorem WritesNumber.length_bytes {n : Nat} {s : List Char} (h : WritesNumber n s) :
    (Text.bytes s).length = s.length := by
  obtain ⟨hdigits, -⟩ := h
  induction s with
  | nil => rfl
  | cons c s ih =>
    rw [List.forall_mem_cons] at hdigits
    rw [Text.bytes_cons_of_isDigit hdigits.1, List.length_cons, List.length_cons, ih hdigits.2]

end FilterTemplate
