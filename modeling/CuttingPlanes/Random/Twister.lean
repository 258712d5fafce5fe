import CuttingPlanes.Action

/-! The Mersenne twister with 624 words of 32 bits, seeded by a whole number. -/

namespace CuttingPlanes.Random

/-- The words of the generator. -/
abbrev Words := Vector UInt32 624

/-- The word at a position, counted around the circle. -/
def Words.at (words : Words) (position : Nat) : UInt32 :=
  words.get ⟨position % 624, Nat.mod_lt _ (by decide)⟩

/-- The words with one replaced. -/
def Words.put (words : Words) (position : Nat) (word : UInt32) : Words :=
  words.set (position % 624) word (Nat.mod_lt _ (by decide))

/-- A word mixed with its own high bits. -/
def folded (word : UInt32) : UInt32 := word ^^^ (word >>> 30)

/-- The words grown from one starting word. -/
def Words.grown (start : UInt32) : Words :=
  (List.range 623).foldl
    (fun words step =>
      words.put (step + 1) (1812433253 * folded (words.at step) + UInt32.ofNat (step + 1)))
    (Vector.replicate 624 start)

/-- A position behind another one, which skips the first word on every turn around the circle. -/
def circled (position : Nat) : Nat := position % 623 + 1

/-- The last word is carried to the front when a turn around the circle ends. -/
def Words.carried (words : Words) (position : Nat) : Words :=
  if position = 623 then words.put 0 (words.at 623) else words

/-- The words with the key stirred into them, word by word. -/
def Words.keyed (key : Array UInt32) (words : Words) : Words :=
  (List.range (max 624 key.size)).foldl
    (fun words step =>
      let position := circled step
      let place := step % key.size
      let stirred := (words.at position ^^^ (folded (words.at (position - 1)) * 1664525)) +
        key.getD place 0 + UInt32.ofNat place
      (words.put position stirred).carried position)
    words

/-- The words stirred once more, so that every one depends on all of the key. -/
def Words.settled (start : Nat) (words : Words) : Words :=
  (List.range 623).foldl
    (fun words step =>
      let position := circled (start + step)
      let stirred := (words.at position ^^^ (folded (words.at (position - 1)) * 1566083941)) -
        UInt32.ofNat position
      (words.put position stirred).carried position)
    words

/-- The 32-bit words of a number, the lowest first; zero has one word. -/
def keyWords (n : Nat) : Array UInt32 :=
  let rec go : Nat → Nat → List UInt32
    | 0, _ => []
    | turns + 1, n => UInt32.ofNat n :: if n < Nat.pow 2 32 then [] else go turns (n / Nat.pow 2 32)
  (go (n.log2 / 32 + 1) n).toArray

/-- The generator: its words, and how many of them have been given out. -/
structure Twister where
  words : Words
  used : Nat

namespace Twister

/-- The generator of a seed, whose sign does not matter. -/
def ofSeed (seed : Int) : Twister :=
  let key := keyWords seed.natAbs
  let words := (Words.grown 19650218).keyed key
  ⟨(words.settled (max 624 key.size)).put 0 0x80000000, 624⟩

/-- The word that follows from the high bit of one word and the low bits of the next. -/
def twist (high low : UInt32) : UInt32 :=
  let mixed := (high &&& 0x80000000) ||| (low &&& 0x7fffffff)
  (mixed >>> 1) ^^^ (if mixed &&& 1 = 0 then 0 else 0x9908b0df)

/-- The next 624 words. -/
def renewed (words : Words) : Words :=
  (List.range 624).foldl
    (fun words position =>
      words.put position
        (words.at (position + 397) ^^^ twist (words.at position) (words.at (position + 1))))
    words

/-- A word as it is given out. -/
def tempered (word : UInt32) : UInt32 :=
  let word := word ^^^ (word >>> 11)
  let word := word ^^^ ((word <<< 7) &&& 0x9d2c5680)
  let word := word ^^^ ((word <<< 15) &&& 0xefc60000)
  word ^^^ (word >>> 18)

/-- The next 32 bits. -/
def word : Action Twister UInt32 := fun twister =>
  let twister := if twister.used < 624 then twister else ⟨renewed twister.words, 0⟩
  ⟨.ok (tempered (twister.words.at twister.used)), { twister with used := twister.used + 1 }, []⟩

/-- The next bits as a number, whole words first and the lowest of them first. -/
def bits (count : Nat) : Action Twister Nat := do
  if count ≤ 32 then
    return (← word).toNat >>> (32 - count)
  else
    let low := (← word).toNat
    return low + Nat.pow 2 32 * (← bits (count - 32))

/-- A number below a positive bound: as many bits as the bound has, drawn until they are below. -/
def below (bound : Nat) : (fuel : Nat) → Action Twister Nat
  | 0 => Action.unfinished
  | fuel + 1 => do
      let drawn ← bits (bound.log2 + 1)
      if drawn < bound then return drawn else below bound fuel

/-- A number from zero up to and including a last one. -/
def upTo (last fuel : Nat) : Action Twister Nat := below (last + 1) fuel

/-- A real from zero to one in steps of `2 ^ -53`, as the count of steps. -/
def unitSteps : Action Twister Nat := do
  let high := (← word).toNat / Nat.pow 2 5
  let low := (← word).toNat / Nat.pow 2 6
  return high * Nat.pow 2 26 + low

end Twister

end CuttingPlanes.Random
