/-
  FilterTemplate.Calendar.Spelling

  How dates are spelled. A number is written in decimal digits, of which the
  first may be zeros. A year from 0 to 9999 is spelled in four digits; any
  other has a sign and at least four digits, with no zero in front of the fifth
  from the end. Texts compare byte by byte.
-/
import FilterTemplate.Number.IntegerText

namespace FilterTemplate

/-- The digits write the number. -/
structure WritesNumber (n : Nat) (s : List Char) : Prop where
  isDigit : ∀ c ∈ s, c.isDigit = true
  digitsValue_eq : digitsValue s = n

/-- The text is the digits of the number, zeros in front only to make it so wide. -/
structure WritesWide (width n : Nat) (s : List Char) : Prop extends WritesNumber n s where
  width_le : width ≤ s.length
  head_ne : width < s.length → s.head? ≠ some '0'

/-- The text spells the year. -/
inductive SpellsYear : Int → List Char → Prop where
  | fourDigits {n : Nat} {s : List Char} : n ≤ 9999 → s.length = 4 → WritesNumber n s →
    SpellsYear n s
  | positive {n : Nat} {s : List Char} : 9999 < n → WritesWide 4 n s → SpellsYear n ('+' :: s)
  | negative {n : Nat} {s : List Char} : 0 < n → WritesWide 4 n s → SpellsYear (-n) ('-' :: s)

/-- The bytes of a text in UTF-8. -/
def Text.bytes (s : List Char) : List UInt8 :=
  (String.ofList s).toUTF8.data.toList

end FilterTemplate
