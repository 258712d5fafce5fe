import CuttingPlanes.Datum.Basic

/-! What a run calls, in the order of the calls. -/

namespace CuttingPlanes

/-- One call made in a run. -/
inductive Event where
  | solve
  | separate
  /-- A candidate is about to be added. -/
  | add (candidate : Datum)
  /-- A watcher is shown an iteration. -/
  | watch (watcher iteration : Nat) (isSolved : Bool)

end CuttingPlanes
