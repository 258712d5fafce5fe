import CuttingPlanes.Action
import CuttingPlanes.Separator.Policy

/-! What a separator counts. -/

namespace CuttingPlanes

/-- Counters over the calls of a separator. -/
structure Tally where
  /-- Calls made, also those that failed. -/
  calls : Nat
  /-- Candidates whose measure was asked for. -/
  evaluated : Nat
  /-- Candidates that were committed without a failure. -/
  rowsAdded : Nat
  deriving DecidableEq, Repr

namespace Tally

/-- Nothing counted yet. -/
def zero : Tally := ⟨0, 0, 0⟩

/-- One more call. -/
def called (tally : Tally) : Tally := { tally with calls := tally.calls + 1 }

/-- One more measure asked for. -/
def looked (tally : Tally) : Tally := { tally with evaluated := tally.evaluated + 1 }

/-- One more candidate committed. -/
def added (tally : Tally) : Tally := { tally with rowsAdded := tally.rowsAdded + 1 }

/-- The line that shows a separator of a policy. -/
def shown (policy : Policy) (tally : Tally) : String :=
  s!"{policy.title}(calls={tally.calls}, rows_added={tally.rowsAdded})"

/-- A step of counting, beside a state of its own. -/
def count {σ : Type} (step : Tally → Tally) : Action (Tally × σ) Unit :=
  Action.modify fun state => (step state.1, state.2)

end Tally

end CuttingPlanes
