import CuttingPlanes.Action

/-! Candidates that are produced one at a time, on demand. -/

namespace CuttingPlanes

/-- Members asked for in order from position zero, until there is none. -/
structure Source (σ γ : Type) where
  next : Nat → Action σ (Option γ)

namespace Source

variable {σ τ γ : Type}

/-- The members of a list, which cost nothing to produce. -/
def ofList (items : List γ) : Source σ γ :=
  let stored := items.toArray
  ⟨fun position => pure stored[position]?⟩

@[simp] theorem ofList_next (items : List γ) (position : Nat) :
    (ofList items : Source σ γ).next position = pure items[position]? := by
  -- The stored copy holds the same members at the same positions.
  simp [ofList]

/-- All members from a position on, within the granted turns. -/
def collectFrom (source : Source σ γ) : (fuel : Nat) → (position : Nat) → Action σ (List γ)
  | 0, _ => Action.unfinished
  | fuel + 1, position => do
      match ← source.next position with
      | none => return []
      | some member => return member :: (← source.collectFrom fuel (position + 1))

/-- All members, within the granted turns. -/
def collect (source : Source σ γ) (fuel : Nat) : Action σ (List γ) := source.collectFrom fuel 0

/-- The members from a position on, up to a number of them. -/
def upToFrom (source : Source σ γ) : (count : Nat) → (position : Nat) → Action σ (List γ)
  | 0, _ => return []
  | count + 1, position => do
      match ← source.next position with
      | none => return []
      | some member => return member :: (← source.upToFrom count (position + 1))

/-- The first members, up to a number of them. -/
def upTo (source : Source σ γ) (count : Nat) : Action σ (List γ) := source.upToFrom count 0

/-- A source whose state is the second part of a larger one. -/
def onSecond (source : Source σ γ) : Source (τ × σ) γ :=
  ⟨fun position => (source.next position).onSecond⟩

end Source

end CuttingPlanes
