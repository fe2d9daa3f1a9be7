/-
  FilterTemplate.Number.Rounding

  The binary64 number nearest a ratio of natural numbers, a tie going to the
  even neighbour. The ratio is scaled so that its whole part has fifty-three
  bits, or fewer when the exponent is already the least one, and is then
  rounded once; the result reads off as bits because a significand that
  carries into the next power of two carries into the exponent's bits.
-/
import FilterTemplate.Number.Binary64

namespace FilterTemplate

/-- The natural number nearest `num / den`, a tie going to the even one. -/
def roundedQuotient (num den : Nat) : Nat :=
  let whole := num / den
  let rest := 2 * (num % den)
  if rest < den || (rest == den && whole % 2 == 0) then whole else whole + 1

/-- `num / den` over `2 ^ exponent`, as a numerator and a denominator. -/
def scaledRatio (num den : Nat) (exponent : Int) : Nat × Nat :=
  (num * Nat.pow 2 (-exponent).toNat, den * Nat.pow 2 exponent.toNat)

namespace Binary64

/-- The power of two whose multiples are the binary64 numbers around `num / den`. -/
def unitExponent (num den : Nat) : Int :=
  let low := max (-1074) ((Nat.log2 num : Int) - Nat.log2 den - 53)
  let (n, d) := scaledRatio num den low
  if 0x20000000000000 ≤ n / d then low + 1 else low

/-- The magnitude bits of the binary64 number nearest `num / den`. -/
def nearestMagnitude (num den : Nat) : Nat :=
  let exponent := unitExponent num den
  let (n, d) := scaledRatio num den exponent
  min infinityMagnitude ((exponent + 1074).toNat * 0x10000000000000 + roundedQuotient n d)

/-- The binary64 number nearest `num / den` with the given sign, which is
infinite for a ratio beyond the finite numbers. -/
def nearest (negative : Bool) (num den : Nat) : Binary64 :=
  if num = 0 then zero negative else ofMagnitude negative (nearestMagnitude num den)

example : nearest false 1 10 = ⟨0x3FB999999999999A⟩ ∧ nearest true 0 10 = zero true := by
  decide +kernel

example : nearest false 5 (Nat.pow 10 324) = ⟨1⟩ ∧
    nearest true 24703282292062327 (Nat.pow 10 340) = zero true := by decide +kernel

example : nearest false (17976931348623157 * Nat.pow 10 292) 1 = ⟨0x7FEFFFFFFFFFFFFF⟩ ∧
    nearest false (17976931348623159 * Nat.pow 10 292) 1 = infinity false := by decide +kernel

end Binary64

/-! ## The narrower format -/

/-- A number of the IEEE 754 binary32 format. -/
structure Binary32 where
  bits : UInt32
  deriving DecidableEq, Inhabited

namespace Binary32

/-- The same number in binary64, which holds every binary32 number exactly. -/
def widen (x : Binary32) : Binary64 :=
  let negative : Bool := 0x80000000 ≤ x.bits.toNat
  let field := x.bits.toNat / 0x800000 % 0x100
  let fraction := x.bits.toNat % 0x800000
  if field = 255 then
    if fraction = 0 then .infinity negative else .nan
  else if field = 0 then
    .nearest negative fraction (Nat.pow 2 149)
  else
    .nearest negative ((fraction + 0x800000) * Nat.pow 2 (field - 1)) (Nat.pow 2 149)

example : widen ⟨0x3DCCCCCD⟩ = ⟨0x3FB99999A0000000⟩ ∧ widen ⟨0x80000001⟩ = ⟨0xB6A0000000000000⟩ := by
  decide +kernel

end Binary32

end FilterTemplate
