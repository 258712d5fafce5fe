import CuttingPlanes.Action
import CuttingPlanes.Loop.Status

/-! The bare loop: solve, look for a violated row, add it, and solve again. -/

namespace CuttingPlanes

/-- What a loop alternates between, and the status that keeps it going. -/
structure Task (σ R S A : Type) where
  solve : Action σ R
  /-- Adds a violated row, and says whether there was one. -/
  separate : Action σ A
  optimal : S

namespace Task

variable {σ R S A : Type} [HasStatus R S] [Status S] [Answer A]

/-- Whether a status is the one that keeps a loop going. -/
def isOptimal (task : Task σ R S A) (status : S) : Bool := Status.same status task.optimal

/-- Solves until no violated row is left or a solve ends otherwise; gives the last status. -/
def alternate (task : Task σ R S A) : (fuel : Nat) → Action σ S
  | 0 => Action.unfinished
  | fuel + 1 => do
      let status := HasStatus.status (← task.solve)
      if task.isOptimal status then
        if Answer.yes (← task.separate) then task.alternate fuel else return status
      else return status

end Task

end CuttingPlanes
