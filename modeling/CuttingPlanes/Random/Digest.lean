/-!
The digest of 512 bits from the Secure Hash Standard, over words of 64 bits. Its constants are the
fractions of the square and cube roots of the first primes.
-/

namespace CuttingPlanes.Random.Digest

/-- Whether a number is a prime. -/
def isPrime (n : Nat) : Bool :=
  2 ≤ n && (List.range n).all fun divisor => divisor < 2 || n % divisor != 0

/-- The first primes, as many as the digest has rounds. -/
def primes : List Nat := (List.range 410).filter isPrime

/-- The greatest number whose power is at most another one, found bit by bit from some bits on. -/
def rootFrom (degree n : Nat) : (bits : Nat) → (found : Nat) → Nat
  | 0, found => found
  | bits + 1, found =>
      let next := found + Nat.pow 2 bits
      if Nat.pow next degree ≤ n then rootFrom degree n bits next
      else rootFrom degree n bits found

/-- The first 64 bits behind the point of a root of a small number. -/
def rootFraction (degree n : Nat) : UInt64 :=
  UInt64.ofNat (rootFrom degree (n * Nat.pow 2 (64 * degree)) 69 0)

/-- The constants of the rounds. -/
def roundConstants : List UInt64 := primes.map (rootFraction 3)

/-- The eight words that blocks are worked into. -/
structure State where
  a : UInt64
  b : UInt64
  c : UInt64
  d : UInt64
  e : UInt64
  f : UInt64
  g : UInt64
  h : UInt64

namespace State

/-- The state before the first block. -/
def start : State :=
  let word (prime : Nat) : UInt64 := rootFraction 2 prime
  ⟨word 2, word 3, word 5, word 7, word 11, word 13, word 17, word 19⟩

/-- The words in order. -/
def words (state : State) : List UInt64 :=
  [state.a, state.b, state.c, state.d, state.e, state.f, state.g, state.h]

/-- The sum of two states, word by word. -/
def add (left right : State) : State :=
  ⟨left.a + right.a, left.b + right.b, left.c + right.c, left.d + right.d, left.e + right.e,
    left.f + right.f, left.g + right.g, left.h + right.h⟩

end State

/-- A word turned to the right. -/
def turned (word count : UInt64) : UInt64 := (word >>> count) ||| (word <<< (64 - count))

/-- A word mixed with two turns of itself and with its high bits. -/
def mixed (first second shift word : UInt64) : UInt64 :=
  turned word first ^^^ turned word second ^^^ (word >>> shift)

/-- A word mixed of three turns of itself. -/
def spun (first second third word : UInt64) : UInt64 :=
  turned word first ^^^ turned word second ^^^ turned word third

/-- The words of a block and those that follow from them, one for every round. -/
def schedule (block : Array UInt64) : Array UInt64 :=
  (List.range 64).foldl
    (fun words step =>
      words.push (mixed 19 61 6 (words.getD (step + 14) 0) + words.getD (step + 9) 0 +
        mixed 1 8 7 (words.getD (step + 1) 0) + words.getD step 0))
    block

/-- One round with a constant and a word. -/
def round (state : State) (constant word : UInt64) : State :=
  let choice := (state.e &&& state.f) ^^^ ((state.e ^^^ 0xffffffffffffffff) &&& state.g)
  let majority := (state.a &&& state.b) ^^^ (state.a &&& state.c) ^^^ (state.b &&& state.c)
  let first := state.h + spun 14 18 41 state.e + choice + constant + word
  let second := spun 28 34 39 state.a + majority
  ⟨first + second, state.a, state.b, state.c, state.d + first, state.e, state.f, state.g⟩

/-- A block worked into a state. -/
def absorb (state : State) (block : Array UInt64) : State :=
  state.add ((roundConstants.zip (schedule block).toList).foldl
    (fun state step => round state step.1 step.2) state)

/-- The number that bytes write, the highest byte first. -/
def number (bytes : List UInt8) : Nat :=
  bytes.foldl (fun value byte => 256 * value + byte.toNat) 0

/-- The last bytes of a number, as many as asked for and the highest of them first. -/
def bytesOf : (count : Nat) → Nat → List UInt8
  | 0, _ => []
  | count + 1, n => bytesOf count (n / 256) ++ [UInt8.ofNat n]

/-- A message with a mark behind it, zeros up to the end of a block, and its length in bits. -/
def padded (message : List UInt8) : List UInt8 :=
  message ++ 128 :: List.replicate ((239 - message.length % 128) % 128) 0 ++
    bytesOf 16 (8 * message.length)

/-- The words of some bytes, eight bytes to a word. -/
def wordsOf : (count : Nat) → List UInt8 → List UInt64
  | 0, _ => []
  | count + 1, bytes =>
      UInt64.ofNat (number (bytes.take 8)) :: wordsOf count (bytes.drop 8)

/-- The state after some blocks of a padded message. -/
def absorbAll (state : State) : (blocks : Nat) → List UInt8 → State
  | 0, _ => state
  | blocks + 1, bytes =>
      absorbAll (absorb state (wordsOf 16 (bytes.take 128)).toArray) blocks (bytes.drop 128)

/-- The digest of a message. -/
def ofBytes (message : List UInt8) : List UInt8 :=
  let bytes := padded message
  (absorbAll State.start (bytes.length / 128) bytes).words.flatMap fun word =>
    bytesOf 8 word.toNat

end CuttingPlanes.Random.Digest
