/-
  FilterTemplate.Number.Shortest

  The shortest decimal that reads back as a given binary64 number. The reals
  nearer to the number than to its neighbours form an interval, ends included
  when the significand is even. On the grid of the multiples of a power of ten
  the number has two neighbours; the coarsest grid with a neighbour in the
  interval wins, and of two such neighbours the nearer one. Only where both
  are equally near is there a choice, which `Tie` makes.
-/
import FilterTemplate.Number.Rounding

namespace FilterTemplate

/-- Which of two equally near decimals to take. -/
inductive Tie where
  /-- The greater one. -/
  | up
  /-- The one with an even last digit. -/
  | even
  deriving DecidableEq

/-- The decimal number `digits · 10 ^ exponent`. -/
structure Decimal where
  digits : Nat
  exponent : Int
  deriving DecidableEq

namespace Decimal

/-- How many decimal digits a number has; zero has none. -/
def digitCount (n : Nat) : Nat :=
  if n = 0 then 0 else (Nat.toDigits 10 n).length

/-- Moves the zeros at the end of the digits, up to `limit` of them, into the exponent. -/
def normalize : (limit : Nat) → Decimal → Decimal
  | 0, d => d
  | limit + 1, d =>
    if d.digits % 10 = 0 then normalize limit ⟨d.digits / 10, d.exponent + 1⟩ else d

end Decimal

/-- The exponent of the first digit of `num / den`, a positive ratio:
`10 ^ e ≤ num / den < 10 ^ (e + 1)`. -/
def leadingExponent (num den : Nat) : Int :=
  if den ≤ num then (Decimal.digitCount (num / den) : Int) - 1
  else -(Decimal.digitCount ((den - 1) / num) : Int)

/-- The reals that round to a binary64 number, in units of a quarter of the
number's own: all of `low` to `high`, the ends only when `closed`. -/
structure RoundingInterval where
  value : Nat
  low : Nat
  high : Nat
  closed : Bool

namespace RoundingInterval

/-- The interval of a finite number. Below a power of two the neighbour is
nearer by half. -/
def of (x : Binary64) : RoundingInterval :=
  let m := x.significand
  { value := 4 * m
    low := if m = 0x10000000000000 ∧ 1 < x.exponentField then 4 * m - 1 else 4 * m - 2
    high := 4 * m + 2
    closed := m % 2 == 0 }

/-- `num / den`, in the interval's unit, lies in the interval. -/
def contains (i : RoundingInterval) (num den : Nat) : Bool :=
  if i.closed then i.low * den ≤ num && num ≤ i.high * den
  else i.low * den < num && num < i.high * den

end RoundingInterval

namespace Binary64

/-- A quarter of a finite number's unit, as a ratio. -/
def quarterUnit (x : Binary64) : Nat × Nat :=
  scaledRatio 1 1 (2 - x.exponent)

/-- The neighbour of `x` on the grid of the multiples of `10 ^ exponent` that
reads back as `x`, if there is one. -/
def onGrid? (tie : Tie) (x : Binary64) (exponent : Int) : Option Decimal :=
  let i := RoundingInterval.of x
  let (un, ud) := x.quarterUnit
  -- One step of the grid is `step / scale` quarter units.
  let step := ud * Nat.pow 10 exponent.toNat
  let scale := un * Nat.pow 10 (-exponent).toNat
  let below := i.value * scale / step
  let gap := 2 * (i.value * scale % step)
  let low := i.contains (below * step) scale
  let high := i.contains ((below + 1) * step) scale
  let takeLow := gap < step || (gap == step && tie == .even && below % 2 == 0)
  if low && high then some ⟨if takeLow then below else below + 1, exponent⟩
  else if low then some ⟨below, exponent⟩
  else if high then some ⟨below + 1, exponent⟩
  else none

/-- The first decimal found on the grids of `exponent`, `exponent - 1`, … -/
def searchGrids (tie : Tie) (x : Binary64) : (count : Nat) → (exponent : Int) → Decimal
  | 0, exponent => ⟨0, exponent⟩
  | count + 1, exponent =>
    match onGrid? tie x exponent with
    | some d => d
    | none => searchGrids tie x count (exponent - 1)

/-- The shortest decimal that reads back as the magnitude of `x`, a finite
number other than zero. Seventeen digits are always enough. -/
def shortest (tie : Tie) (x : Binary64) : Decimal :=
  let (n, d) := scaledRatio x.significand 1 (-x.exponent)
  (searchGrids tie x 17 (leadingExponent n d)).normalize 17

example : shortest .even ⟨0x3FB999999999999A⟩ = ⟨1, -1⟩ := by decide +kernel

example : shortest .even ⟨1⟩ = ⟨5, -324⟩ ∧
    shortest .even ⟨0x7FEFFFFFFFFFFFFF⟩ = ⟨17976931348623157, 292⟩ := by decide +kernel

-- Two decimals of seventeen digits are equally near 2 ^ -25.
example : shortest .even ⟨0x3E60000000000000⟩ = ⟨29802322387695312, -24⟩ ∧
    shortest .up ⟨0x3E60000000000000⟩ = ⟨29802322387695313, -24⟩ := by decide +kernel

end Binary64

end FilterTemplate
