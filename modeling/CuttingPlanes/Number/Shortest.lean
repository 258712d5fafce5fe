import CuttingPlanes.Number.Binary64

/-! The fewest decimal digits that lie within the rounding interval of a double. -/

namespace CuttingPlanes.Shortest

/-- Decimal digits, read as a whole number times a power of ten. -/
structure Decimal where
  digits : Nat
  exponent : Int
  deriving DecidableEq, Repr

/-- The numbers nearer to a double than to its neighbours, as quarters of its last place. -/
structure Interval where
  low : Nat
  middle : Nat
  high : Nat
  /-- Whether the ends belong to the interval. -/
  closed : Bool
  /-- The power of two that one quarter stands for. -/
  exponent : Int

/-- The interval of a positive double; its lower half is shorter where the exponent changes. -/
def interval (significand : Nat) (exponent : Int) : Interval :=
  let boundary := significand = Nat.pow 2 52 ∧ Binary64.leastExponent < exponent
  { low := 4 * significand - (if boundary then 1 else 2)
    middle := 4 * significand
    high := 4 * significand + 2
    closed := significand % 2 = 0
    exponent := exponent - 2 }

/-- One unit of a decimal grid, as a quotient of quarters. -/
def gridUnit (place twos : Int) : Nat × Nat :=
  let numerator := Nat.pow 10 place.toNat * Nat.pow 2 (-twos).toNat
  let denominator := Nat.pow 10 (-place).toNat * Nat.pow 2 twos.toNat
  (numerator, denominator)

/-- Whether a number of grid units lies in the interval. -/
def Interval.holds (interval : Interval) (unit : Nat × Nat) (count : Nat) : Bool :=
  let value := count * unit.1
  if interval.closed then
    interval.low * unit.2 ≤ value ∧ value ≤ interval.high * unit.2
  else interval.low * unit.2 < value ∧ value < interval.high * unit.2

/-- The grid point of the interval nearest to its middle, a tie going to the even count. -/
def Interval.onGrid (interval : Interval) (place : Int) : Option Nat :=
  let unit := gridUnit place interval.exponent
  let middle := interval.middle * unit.2
  let below := middle / unit.1
  match interval.holds unit below, interval.holds unit (below + 1) with
  | false, false => none
  | true, false => some below
  | false, true => some (below + 1)
  | true, true =>
      let left := middle - below * unit.1
      let right := (below + 1) * unit.1 - middle
      some (if left < right ∨ (left = right ∧ below % 2 = 0) then below else below + 1)

/-- The greatest power of ten that a positive quotient reaches. -/
def leadingPlace (numerator denominator : Nat) : Int :=
  -- A power of two fixes the place up to one, since its logarithm is rounded down.
  let guess := (Binary64.leadingExponent numerator denominator * 30103).fdiv 100000
  let next := guess + 1
  if denominator * Nat.pow 10 next.toNat ≤ numerator * Nat.pow 10 (-next).toNat then next
  else guess

/-- Digits without the zeros that end them. -/
def trimZeros : Nat → Decimal → Decimal
  | 0, decimal => decimal
  | turns + 1, decimal =>
      if decimal.digits ≠ 0 ∧ decimal.digits % 10 = 0 then
        trimZeros turns ⟨decimal.digits / 10, decimal.exponent + 1⟩
      else decimal

/-- The first hit among the grids from `count` digits on, for at most `grids` of them. -/
def search (interval : Interval) (leading : Int) : (grids : Nat) → (count : Nat) → Option Decimal
  | 0, _ => none
  | grids + 1, count =>
      let place := leading - count
      match interval.onGrid place with
      | some digits => some ⟨digits, place⟩
      | none => search interval leading grids (count + 1)

/-- The shortest decimal that reads back as a positive double; seventeen digits always do. -/
def ofPositive (significand : Nat) (exponent : Int) : Decimal :=
  let numerator := significand * Nat.pow 2 exponent.toNat
  let denominator := Nat.pow 2 (-exponent).toNat
  let leading := leadingPlace numerator denominator
  match search (interval significand exponent) leading 17 0 with
  | some decimal => trimZeros 17 decimal
  | none => ⟨0, 0⟩

end CuttingPlanes.Shortest
