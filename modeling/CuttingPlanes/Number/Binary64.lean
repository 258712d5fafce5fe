import CuttingPlanes.Number.Extended

/-! Doubles as exact numbers, and the double nearest to an exact number. -/

namespace CuttingPlanes.Binary64

/-- A double taken apart; a finite one is its significand times a power of two. -/
inductive Form where
  | finite (negative : Bool) (significand : Nat) (exponent : Int)
  | infinite (negative : Bool)
  | undefined
  deriving DecidableEq

/-- The least exponent of a finite double. -/
def leastExponent : Int := -1074

/-- The fields of a double, with the hidden bit written out. -/
def form (x : Float) : Form :=
  let bits := x.toBits.toNat
  let negative := decide (Nat.pow 2 63 ≤ bits)
  let field : Nat := bits / Nat.pow 2 52 % Nat.pow 2 11
  let fraction := bits % Nat.pow 2 52
  if field = Nat.pow 2 11 - 1 then
    if fraction = 0 then .infinite negative else .undefined
  else if field = 0 then .finite negative fraction leastExponent
  else .finite negative (Nat.pow 2 52 + fraction) ((field : Int) - 1 + leastExponent)

/-- A significand times a power of two, as a rational. -/
def scaled (significand : Nat) (exponent : Int) : Rat :=
  if 0 ≤ exponent then (significand * Nat.pow 2 exponent.toNat : Nat)
  else mkRat significand (Nat.pow 2 (-exponent).toNat)

/-- The exact number that a double stands for. -/
def exact (x : Float) : Extended :=
  match form x with
  | .finite negative significand exponent =>
      let size := scaled significand exponent
      .finite (if negative then -size else size)
  | .infinite negative => .infinite negative
  | .undefined => .undefined

/-- A quotient rounded to the nearest whole number, a half to the even one. -/
def roundQuotient (numerator denominator : Nat) : Nat :=
  let whole := numerator / denominator
  let rest := 2 * (numerator % denominator)
  if denominator < rest ∨ (rest = denominator ∧ whole % 2 = 1) then whole + 1 else whole

/-- A quotient divided by a power of two and rounded. -/
def roundScaled (numerator denominator : Nat) (exponent : Int) : Nat :=
  if 0 ≤ exponent then roundQuotient numerator (denominator * Nat.pow 2 exponent.toNat)
  else roundQuotient (numerator * Nat.pow 2 (-exponent).toNat) denominator

/-- The exponent of the highest power of two that a positive quotient reaches. -/
def leadingExponent (numerator denominator : Nat) : Int :=
  let guess : Int := numerator.log2 - denominator.log2
  -- The quotient of two leading bits is off by at most one place.
  let reached :=
    if 0 ≤ guess then decide (denominator * Nat.pow 2 guess.toNat ≤ numerator)
    else decide (denominator ≤ numerator * Nat.pow 2 (-guess).toNat)
  if reached then guess else guess - 1

/-- The bits of positive infinity. -/
def infinityBits : Nat := (Nat.pow 2 11 - 1) * Nat.pow 2 52

/-- The bits of the double nearest to a quotient, which is infinite when none is large enough. -/
def nearestBits (numerator denominator : Nat) : Nat :=
  if numerator = 0 then 0
  else
    let exponent := max (leadingExponent numerator denominator - 52) leastExponent
    let significand := roundScaled numerator denominator exponent
    -- A significand carries its hidden bit into the exponent field, which makes the sum exact.
    min infinityBits ((exponent - leastExponent).toNat * Nat.pow 2 52 + significand)

/-- The double nearest to a rational, a half going to the even significand. -/
def nearest (q : Rat) : Float :=
  let size := nearestBits q.num.natAbs q.den
  Float.ofBits (UInt64.ofNat (if q.num < 0 then Nat.pow 2 63 + size else size))

/-- Positive or negative infinity. -/
def infinity (negative : Bool) : Float :=
  Float.ofBits (UInt64.ofNat (if negative then Nat.pow 2 63 + infinityBits else infinityBits))

/-- The double that is no number. -/
def noNumber : Float :=
  Float.ofBits (UInt64.ofNat (infinityBits + Nat.pow 2 51))

/-- The double nearest to a whole number, refused when it lies beyond the finite doubles. -/
def ofInt? (n : Int) : Option Float :=
  let size := nearestBits n.natAbs 1
  if size = infinityBits then none else some (nearest n)

end CuttingPlanes.Binary64
