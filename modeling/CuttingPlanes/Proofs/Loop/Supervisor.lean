import CuttingPlanes.Proofs.Loop.Timing

/-! What a supervised run keeps from one iteration to the next, and how it may end. -/

namespace CuttingPlanes

variable {σ κ R S A : Type} [HasStatus R S] [HasObjective R ℚ] [Status S] [Answer A]

/-- What holds between the steps of a run in which some rows have been added. -/
structure Task.Invariant (task : Task σ R S A) (allowed : Interrupt → Prop) where
  /-- Ahead of every solve. -/
  before : Nat → σ → Prop
  /-- After a solve with its result. -/
  solved : Nat → R → σ → Prop
  /-- After a solve whose result violates nothing. -/
  passed : Nat → R → σ → Prop
  solves : ∀ {count state}, before count state →
    Action.Ensures task.solve state allowed fun result after => solved count result after
  separates : ∀ {count result state}, solved count result state →
    task.isOptimal (HasStatus.status result) →
    Action.Ensures task.separate state allowed fun answer after =>
      if Answer.yes answer then before (count + 1) after else passed count result after

variable {task : Task σ R S A} {allowed : Interrupt → Prop}

/-- The ways in which a run may end, with the last objective and the counts that it reports. -/
inductive Task.Invariant.Closed (steps : task.Invariant allowed) (limits : Limits ℚ) :
    (ending : Ending) → (objective : Option ℚ) → (iterations rowsAdded : Nat) → σ → Prop
  | refused {count result state} (solved : steps.solved count result state)
      (other : task.isOptimal (HasStatus.status result) = false) :
      Closed steps limits (.ofStatus (HasStatus.status result)) (HasObjective.objective result)
        (count + 1) count state
  | passed {count result state} (passed : steps.passed count result state) :
      Closed steps limits .optimal (HasObjective.objective result) (count + 1) count state
  | limited {count ending objective state} (before : steps.before (count + 1) state)
      (cut : ending.isLimit) (limit : 0 < limits.maxIterations ∨ 0 < limits.maxTime) :
      Closed steps limits ending objective (count + 1) (count + 1) state

/-- The course of a loop that keeps an invariant, if the turns suffice. -/
def Task.Invariant.course (steps : task.Invariant allowed) {turns : Nat}
    (enough : allowed .unfinished ∨ ∀ later state, steps.before later state → later < turns) :
    task.Course turns where
  holds
    | .before count, state => steps.before count state
    | .solved count result, state => steps.solved count result state
    | .passed count result, state => steps.passed count result state
  failed cause _ := allowed cause
  solves _ held := steps.solves held
  separates := by
    intro count result state _ solved optimal
    refine (Action.ensures_iff_meets.1 (steps.separates solved optimal)).mono ?_
    intro answer after separated
    cases yes : Answer.yes answer <;> simpa [yes] using separated
  spent held := enough.resolve_right fun bound => (bound _ _ held).false

namespace Supervisor

variable {clock : Clock κ ℚ} {time : κ} {state : σ} {supervisor : Supervisor σ R S A ℚ}
  {steps : supervisor.task.Invariant allowed}

/-- A run ends in one of the ways that an invariant leaves, if the turns suffice. -/
theorem solve_ensures (unwatched : supervisor.watchers = []) {fuel : Nat}
    (enough : allowed .unfinished ∨ ∀ later state, steps.before later state → later < fuel)
    (before : steps.before 0 state) :
    Action.Ensures (supervisor.solve clock fuel) (time, state) allowed
      fun report after => ∃ iterations rowsAdded : Nat, report.iterations = iterations ∧
        report.rowsAdded = rowsAdded ∧
        steps.Closed supervisor.limits report.ending report.objective iterations rowsAdded
          after.2 := by
  -- Without watchers, and with rational times, nothing is added to the course of the loop.
  have keeps : supervisor.Keeps (steps.course enough) clock (fun _ => True) fun _ => False :=
    ⟨supervisor.limits.timed_rat R clock _, by simp [unwatched], fun _ refused => refused.elim⟩
  refine Action.ensures_iff_meets.2 ((keeps.solve_meets before).mono ?_)
  rintro report after ⟨iterations, rowsAdded, iterated, added, closed⟩
  refine ⟨iterations, rowsAdded, iterated, added, ?_⟩
  generalize report.ending = ending, report.status = status, report.objective = objective at closed
  cases closed with
  | refused held other => exact .refused held other
  | passed held => exact .passed held
  | cut within held cuts =>
    -- Nobody could have refused, so that a limit was reached.
    cases cuts with
    | stopped member => simp [unwatched] at member
    | iterations spent =>
      rw [iterationsSpent_rat] at spent
      exact .limited held rfl (.inl (of_decide_eq_true (Except.ok.inj spent)).1)
    | time spent =>
      rw [timeSpent_rat] at spent
      exact .limited held rfl (.inr (of_decide_eq_true (Except.ok.inj spent)).1)

end Supervisor

end CuttingPlanes
