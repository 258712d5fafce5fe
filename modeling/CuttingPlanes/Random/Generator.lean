import CuttingPlanes.Random.Seed
import CuttingPlanes.Random.Twister

/-! Generators that offsets are drawn from. -/

namespace CuttingPlanes.Random

/-- A way to draw a value when the greatest allowed number is given. -/
abbrev Draw (ρ : Type) := Nat → Action ρ Datum

/-- A seeded generator, or values given beforehand that come around again. -/
inductive Generator where
  | seeded (twister : Twister)
  | scripted (values : Array Datum) (position : Nat)

namespace Generator

/-- The generator of a whole seed. -/
def ofSeed (seed : Int) : Generator := .seeded (Twister.ofSeed seed)

/-- The generator of a seed that is a value. -/
def ofDatum (seed : Datum) : Except Fault Generator := ofSeed <$> Seed.ofDatum seed

/-- A draw with both ends allowed; values given beforehand ignore the bound. -/
def draw (fuel : Nat) : Draw Generator := fun last generator =>
  match generator with
  | .seeded twister =>
      let outcome := (Twister.upTo last fuel).run twister
      ⟨outcome.result.map fun n => .int n, .seeded outcome.state, outcome.log⟩
  | .scripted values position =>
      ⟨.ok (values.getD (position % values.size) .nothing), .scripted values (position + 1), []⟩

end Generator

end CuttingPlanes.Random
