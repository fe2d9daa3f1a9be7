/-
  FilterTemplate.Number.Scaling

  Decimals brought into binary64 in steps. The digits, as a whole number, are
  rounded first; then one multiplication by a power of ten follows, or divisions
  by powers of ten, and each step is rounded on its own. Up to `2 ^ 53` and
  `10 ^ 22` only the last step can round, and the result is the nearest number;
  beyond, it can lie beside the nearest one.
-/
import FilterTemplate.Number.Rounding

namespace FilterTemplate.Binary64

/-! ## Products and quotients -/

/-- The magnitude of a finite number as a ratio. -/
def ratio (x : Binary64) : Nat × Nat :=
  scaledRatio x.significand 1 (-x.exponent)

/-- The product of two finite numbers, rounded. -/
def mul (x y : Binary64) : Binary64 :=
  let (a, b) := x.ratio
  let (c, d) := y.ratio
  nearest (x.isNegative != y.isNegative) (a * c) (b * d)

/-- The quotient of a finite number by a finite number other than zero, rounded. -/
def div (x y : Binary64) : Binary64 :=
  let (a, b) := x.ratio
  let (c, d) := y.ratio
  nearest (x.isNegative != y.isNegative) (a * d) (b * c)

/-! ## Powers of ten -/

/-- The exponent of the greatest power of ten in range. -/
def greatestPower : Nat :=
  308

/-- The number nearest a power of ten. -/
def powerOfTen (n : Nat) : Binary64 :=
  nearest false (Nat.pow 10 n) 1

/-- `x` divided by the greatest power of ten `count` times, and then by one more
power of ten. Zero is left alone. -/
def divideByTens (power : Nat) : (count : Nat) → Binary64 → Binary64
  | 0, x => x.div (powerOfTen power)
  | count + 1, x =>
    if x.isZero then x else divideByTens power count (x.div (powerOfTen greatestPower))

/-- `x · 10 ^ exponent` for a finite `x`, rounded at each step; it is infinite
where a positive exponent or the product is out of range. -/
def scaleByTen (x : Binary64) (exponent : Int) : Binary64 :=
  let n := exponent.natAbs
  if exponent < 0 then
    x.divideByTens ((n - 1) % greatestPower + 1) ((n - 1) / greatestPower)
  else if n ≤ greatestPower then x.mul (powerOfTen n)
  else if x.isZero then x
  else infinity x.isNegative

/-- The number that `digits · 10 ^ exponent` with the given sign is read as. -/
def ofDecimal (negative : Bool) (digits : Nat) (exponent : Int) : Binary64 :=
  (nearest negative digits 1).scaleByTen exponent

example : ofDecimal false 1 (-1) = ⟨0x3FB999999999999A⟩ ∧ ofDecimal true 0 400 = zero true := by
  decide +kernel

example : ofDecimal false 5 (-324) = ⟨1⟩ ∧ ofDecimal false 1 (-700) = zero false ∧
    ofDecimal true 1 309 = infinity true := by decide +kernel

-- The nearest number is one unit greater.
example : ofDecimal false 12345678901234568000 1 = ⟨0x441AC53A7E04BCD9⟩ ∧
    nearest false 123456789012345680000 1 = ⟨0x441AC53A7E04BCDA⟩ := by decide +kernel

end FilterTemplate.Binary64
