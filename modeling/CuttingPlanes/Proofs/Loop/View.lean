import CuttingPlanes.Proofs.Loop.Congruence
import CuttingPlanes.Proofs.View

/-! Supervised loops that do, seen through a view of their state, what others do. -/

namespace CuttingPlanes

variable {σ τ κ R S A K : Type} {view : τ → σ}

/-- A task shows another one when its solves and its searches do. -/
structure Task.Shows (view : τ → σ) (shown : Task τ R S A) (task : Task σ R S A) : Prop where
  solve : Action.Shows view Eq shown.solve task.solve
  separate : Action.Shows view Eq shown.separate task.separate
  optimal : shown.optimal = task.optimal

theorem Task.shows_id (task : Task σ R S A) : task.Shows id task :=
  ⟨Action.shows_id _, Action.shows_id _, rfl⟩

/-- Tasks of which one shows the other await the same status. -/
theorem Task.Shows.isOptimal_eq [Status S] {shown : Task τ R S A} {task : Task σ R S A}
    (shows : shown.Shows view task) : shown.isOptimal = task.isOptimal := by
  funext status
  rw [isOptimal, isOptimal, shows.optimal]

/-- The bare loop of a task shows that of the other one. -/
theorem Task.Shows.alternate [HasStatus R S] [Status S] [Answer A] {shown : Task τ R S A}
    {task : Task σ R S A} (shows : shown.Shows view task) (fuel : Nat) :
    Action.Shows view Eq (shown.alternate fuel) (task.alternate fuel) := by
  induction fuel with
  | zero => exact Action.shows_unfinished
  | succ fuel ih =>
    rw [Task.alternate, Task.alternate, shows.isOptimal_eq]
    refine shows.solve.andThen fun result => ?_
    by_cases optimal : task.isOptimal (HasStatus.status result) = true
    · rw [if_pos optimal, if_pos optimal]
      refine shows.separate.andThen fun answer => ?_
      -- The same answer leads to another turn, or to the end.
      by_cases yes : Answer.yes answer = true
      · rw [if_pos yes, if_pos yes]
        exact ih
      · rw [if_neg yes, if_neg yes]
        exact Action.shows_pure rfl
    · rw [if_neg optimal, if_neg optimal]
      exact Action.shows_pure rfl

namespace Supervisor

variable {shown : Supervisor τ R S A K} {supervisor : Supervisor σ R S A K}

/-- A supervisor shows another one with the same limits when its task and its watchers do. -/
structure Shows (view : τ → σ) (shown : Supervisor τ R S A K) (supervisor : Supervisor σ R S A K) :
    Prop where
  task : shown.task.Shows view supervisor.task
  limits : shown.limits = supervisor.limits
  watchers : List.Forall₂ (fun left right => ∀ isSolved round,
    Action.Shows view Eq (left isSolved round) (right isSolved round)) shown.watchers
    supervisor.watchers
  last : shown.last = supervisor.last

theorem shows_ofTask {shown : Task τ R S A} {task : Task σ R S A} (shows : shown.Shows view task)
    (limits : Limits K) : (ofTask shown limits).Shows view (ofTask task limits) :=
  ⟨shows, rfl, .nil, rfl⟩

/-- Supervisors of which one shows the other have callables that look alike. -/
theorem Shows.related (shows : shown.Shows view supervisor) (clock : Clock κ K) :
    Related (Action.Shows (Prod.map id view) Eq) clock shown supervisor where
  congruence :=
    { pure := fun _ => Action.shows_pure rfl
      bind := fun first => first.andThen
      raise := Action.shows_raise
      unfinished := Action.shows_unfinished
      report := Action.shows_report }
  -- The clock is a part that the view leaves alone.
  reads _ := .value rfl
  solve := shows.task.solve.onSecond
  separate := shows.task.separate.onSecond
  optimal := shows.task.optimal
  limits := shows.limits
  watchers := by
    refine shows.watchers.imp fun watcher other same round => ?_
    -- Both have been solved before, or neither.
    rw [isSolved, isSolved, shows.last]
    exact (same _ round).onSecond

/-- A run shows the run of the other supervisor. -/
theorem Shows.solve [HasStatus R S] [HasObjective R K] [Status S] [Answer A] [Scalar K]
    (shows : shown.Shows view supervisor) (clock : Clock κ K) (fuel : Nat) :
    Action.Shows (Prod.map id view) Eq (shown.solve clock fuel) (supervisor.solve clock fuel) :=
  (shows.related clock).run fuel

end Supervisor

end CuttingPlanes
