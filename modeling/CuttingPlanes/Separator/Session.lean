import CuttingPlanes.Separator.Pool

/-! Sessions with a separator over a pool: calls, and changes of the pool in between. -/

namespace CuttingPlanes

/-- The counters, the rotation and the pool of a session. -/
abbrev PoolBench (ρ : Type) := Tally × (Rotation ρ × Pool)

/-- One step of a session. -/
inductive PoolStep where
  | call
  /-- The counters start again from zero. -/
  | reset
  | measure (position : Nat) (measure : Except Fault Datum)
  | push (entry : PoolEntry)
  /-- Calls until nothing is found, up to a number of calls. -/
  | drain (count : Nat)

namespace Separator

variable {σ γ μ ρ : Type} [Measure μ]

/-- Calls until nothing is found or a number of calls is made; gives the number of calls made. -/
def drain (separator : Separator σ γ μ) (fuel : Nat) :
    (left : Nat) → (made : Nat) → Action (Tally × σ) Nat
  | 0, made => return made
  | left + 1, made => do
      if ← separator.call fuel then separator.drain fuel left (made + 1) else return made + 1

/-- Takes a step; gives what the step itself answers. -/
def step (separator : Separator (Rotation ρ × Pool) Datum Datum) (fuel : Nat) :
    PoolStep → Action (PoolBench ρ) (Option Datum)
  | .call => do return some (.bool (← separator.call fuel))
  | .drain count => do return some (.int (← separator.drain fuel count 0))
  | .reset => do
      Tally.count fun _ => Tally.zero
      return none
  | .measure position measure => do
      Action.modify fun bench => (bench.1, bench.2.1, bench.2.2.withMeasure position measure)
      return none
  | .push entry => do
      Action.modify fun bench => (bench.1, bench.2.1, bench.2.2.pushed entry)
      return none

end Separator

end CuttingPlanes
