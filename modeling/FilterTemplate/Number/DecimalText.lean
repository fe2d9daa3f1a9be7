/-
  FilterTemplate.Number.DecimalText

  Two ways to write a positive decimal number: with all its places, or with one
  digit before the point and a power of ten behind.
-/
import FilterTemplate.Number.Shortest

namespace FilterTemplate.Decimal

/-- The exponent of the first digit. -/
def leading (d : Decimal) : Int :=
  d.exponent + (Nat.toDigits 10 d.digits).length - 1

/-- The number with all its places. A whole number ends in `wholeEnd`. -/
def positional (d : Decimal) (wholeEnd : List Char) : List Char :=
  let digits := Nat.toDigits 10 d.digits
  if 0 ≤ d.exponent then
    digits ++ List.replicate d.exponent.toNat '0' ++ wholeEnd
  else
    let point := digits.length + d.exponent
    if 0 < point then
      digits.take point.toNat ++ '.' :: digits.drop point.toNat
    else
      '0' :: '.' :: (List.replicate (-point).toNat '0' ++ digits)

/-- The number as one digit, the others behind the point if there are any, and
the power of ten with its sign. -/
def scientific (d : Decimal) : List Char :=
  let digits := Nat.toDigits 10 d.digits
  let fraction := if digits.length = 1 then [] else '.' :: digits.drop 1
  let sign := if d.leading < 0 then '-' else '+'
  digits.take 1 ++ fraction ++ 'e' :: sign :: Nat.toDigits 10 d.leading.natAbs

example : positional ⟨15, -1⟩ [] = "1.5".toList ∧ positional ⟨15, -4⟩ [] = "0.0015".toList ∧
    positional ⟨15, 2⟩ ['.', '0'] = "1500.0".toList := by decide +kernel

example : scientific ⟨15, 299⟩ = "1.5e+300".toList ∧ scientific ⟨1, -7⟩ = "1e-7".toList := by
  decide +kernel

end FilterTemplate.Decimal
