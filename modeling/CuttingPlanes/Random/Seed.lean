import CuttingPlanes.Datum.Basic
import CuttingPlanes.Random.Digest

/-! Whole numbers that stand for the values which generators are seeded with. -/

namespace CuttingPlanes.Random.Seed

/-- The prime modulo which reals are condensed, `2 ^ 61 - 1`. -/
def modulus : Nat := 2305843009213693951

/-- What stands for the two infinities, but for the sign. -/
def infinite : Nat := 314159

/-- A number below the prime with a sign; minus one is not used. -/
def signed (negative : Bool) (size : Nat) : Int :=
  if !negative then size else if size = 1 then -2 else -size

/-- A real condensed to a number with a sign; a real keeps what an equal whole number has. -/
def condensed (x : Float) : Int :=
  match Binary64.form x with
  -- Powers of two repeat after 61 steps, so that halving is a power of two as well.
  | .finite negative significand exponent =>
      signed negative (significand * Nat.pow 2 (exponent % 61).toNat % modulus)
  | .infinite negative => signed negative infinite
  | .undefined => 0

/-- The seed of a real: its condensed number, as a word of 64 bits. -/
def ofReal (x : Float) : Nat := (condensed x % Nat.pow 2 64).toNat

/-- The seed of a text: its bytes and then their digest, as one number. -/
def ofText (s : String) : Nat :=
  let bytes := s.toUTF8.toList
  Digest.number (bytes ++ Digest.ofBytes bytes)

/-- The seed that a value stands for; an absent value counts as zero. -/
def ofDatum : Datum → Except Fault Int
  | .nothing => .ok 0
  | .bool value => .ok (if value then 1 else 0)
  | .int seed => .ok seed
  | .float value => .ok (ofReal value)
  | .undefined _ => .ok 0
  | .text value => .ok (ofText value)
  | .list _ => .error .badSeed
  | .object _ => .error .badSeed

end CuttingPlanes.Random.Seed
