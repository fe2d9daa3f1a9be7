/-
  FilterTemplate.Number.Binary64

  Numbers of the IEEE 754 binary64 format, held as their sixty-four bits: one
  sign bit, eleven bits of exponent and fifty-two of fraction. A finite number
  is `significand · 2 ^ exponent` with its sign; the format's own comparison
  `equal` has no number equal to a NaN and the two zeros equal.
-/

namespace FilterTemplate

/-- A number of the IEEE 754 binary64 format. -/
structure Binary64 where
  bits : UInt64
  deriving DecidableEq, Inhabited

namespace Binary64

/-! ## Fields -/

/-- The sign bit is set. -/
def isNegative (x : Binary64) : Bool :=
  0x8000000000000000 ≤ x.bits.toNat

/-- The eleven bits of the exponent. -/
def exponentField (x : Binary64) : Nat :=
  x.bits.toNat / 0x10000000000000 % 0x800

/-- The fifty-two bits of the fraction. -/
def fraction (x : Binary64) : Nat :=
  x.bits.toNat % 0x10000000000000

/-- Not a number: the greatest exponent and some fraction. -/
def isNaN (x : Binary64) : Bool :=
  x.exponentField == 2047 && x.fraction != 0

/-- Infinite: the greatest exponent and no fraction. -/
def isInfinite (x : Binary64) : Bool :=
  x.exponentField == 2047 && x.fraction == 0

/-- Neither infinite nor a NaN. -/
def isFinite (x : Binary64) : Bool :=
  x.exponentField != 2047

/-- Zero of either sign. -/
def isZero (x : Binary64) : Bool :=
  x.exponentField == 0 && x.fraction == 0

/-- The whole number of units of `2 ^ exponent` in the magnitude of a finite number. -/
def significand (x : Binary64) : Nat :=
  if x.exponentField = 0 then x.fraction else x.fraction + 0x10000000000000

/-- The power of two that a finite number's significand counts. -/
def exponent (x : Binary64) : Int :=
  if x.exponentField = 0 then -1074 else (x.exponentField : Int) - 1075

/-! ## Comparison -/

/-- Equality of the numbers: a NaN equals nothing, and the two zeros are equal. -/
def equal (x y : Binary64) : Bool :=
  !x.isNaN && !y.isNaN && (x.bits == y.bits || (x.isZero && y.isZero))

/-! ## Construction -/

/-- The magnitude bits of infinity: every greater magnitude is a NaN's. -/
def infinityMagnitude : Nat :=
  0x7FF0000000000000

/-- The number with the given sign and the given lower sixty-three bits. -/
def ofMagnitude (negative : Bool) (magnitude : Nat) : Binary64 :=
  ⟨UInt64.ofNat (magnitude + if negative then 0x8000000000000000 else 0)⟩

/-- Zero of the given sign. -/
def zero (negative : Bool) : Binary64 :=
  ofMagnitude negative 0

/-- Infinity of the given sign. -/
def infinity (negative : Bool) : Binary64 :=
  ofMagnitude negative infinityMagnitude

/-- A NaN. -/
def nan : Binary64 :=
  ofMagnitude false 0x7FF8000000000000

/-- Finite numbers are the ones that are neither infinite nor a NaN. -/
theorem isFinite_eq (x : Binary64) : x.isFinite = (!x.isNaN && !x.isInfinite) := by
  unfold isFinite isNaN isInfinite bne
  cases x.exponentField == 2047 <;> cases x.fraction == 0 <;> rfl

example : (zero true).equal (zero false) = true ∧ nan.equal nan = false := by decide

end Binary64

end FilterTemplate
