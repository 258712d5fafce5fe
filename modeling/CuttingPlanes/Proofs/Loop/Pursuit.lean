import CuttingPlanes.Proofs.Loop.Timing
import CuttingPlanes.Proofs.Loop.View

/-! A supervised run takes its task where the bare loop takes it, up to where it is cut short. -/

namespace CuttingPlanes

variable {σ τ κ R S A K : Type} {view : τ → σ}

/-- A computation that shows a first step leaves what is to come after that step. -/
theorem Action.Shows.meets_ends {α β : Type} {shown : Action τ α} {action : Action σ α}
    (shows : Action.Shows view Eq shown action) {next : α → Action σ β} {state : τ}
    {aim : Except Interrupt β × σ} (ahead : (action >>= next).ends (view state) = aim) :
    shown.Meets state (fun value after => (next value).ends (view after) = aim)
      fun cause after => (.error cause, view after) = aim := by
  rw [Action.ends_bind, Action.ends] at ahead
  -- Both end alike, and what is left to do is done from where they end.
  have alike := shows state
  unfold Action.Meets
  generalize shown.run state = left, action.run (view state) = right at alike ahead ⊢
  cases alike with
  | value same => subst same; exact ahead
  | failure => exact ahead

variable [HasStatus R S] [Status S] [Answer A]

namespace Task

/--
Solves until no violated row is left or a solve ends otherwise.

Gives the number of rows added, those of before included, and the last result.
-/
def complete (task : Task σ R S A) : (fuel count : Nat) → Action σ (Nat × R)
  | 0, _ => Action.unfinished
  | fuel + 1, count => do
      let result ← task.solve
      if task.isOptimal (HasStatus.status result) then
        if Answer.yes (← task.separate) then task.complete fuel (count + 1)
        else return (count, result)
      else return (count, result)

variable {task : Task σ R S A}

/-- The bare loop gives the status of the last result. -/
theorem alternate_eq (fuel count : Nat) :
    task.alternate fuel = (fun last => HasStatus.status last.2) <$> task.complete fuel count := by
  induction fuel generalizing count with
  | zero => rfl
  | succ fuel ih =>
    -- The steps are the same ones, up to what is given in the end.
    simp only [alternate, complete, map_bind]
    congr 1
    funext result
    split
    · rw [map_bind]
      congr 1
      funext answer
      split
      · exact ih (count + 1)
      · rfl
    · rfl

/-- Rows that were there before are counted beside the ones that are added. -/
theorem complete_add (fuel count extra : Nat) :
    task.complete fuel (count + extra) =
      (fun last => (last.1 + extra, last.2)) <$> task.complete fuel count := by
  induction fuel generalizing count with
  | zero => rfl
  | succ fuel ih =>
    -- The count is only handed on, so that no step depends on it.
    simp only [complete, map_bind]
    congr 1
    funext result
    split
    · rw [map_bind]
      congr 1
      funext answer
      split
      · rw [← ih, Nat.add_right_comm]
      · rfl
    · rfl

/-- A loop ends alike when it forgets the rows that were there before. -/
theorem exists_complete_zero {fuel before count : Nat} {result : R} {state after : σ}
    (ended : (task.complete fuel before).ends state = (.ok (count, result), after)) :
    ∃ fewer, count = fewer + before ∧
      (task.complete fuel 0).ends state = (.ok (fewer, result), after) := by
  rw [← Nat.zero_add before, complete_add, Action.ends_map] at ended
  obtain ⟨given, rfl⟩ := Prod.mk.inj ended
  -- The result is the same, and the count is what is added to those of before.
  generalize (task.complete fuel 0).ends state = left at given ⊢
  rcases left with ⟨_ | ⟨fewer, result⟩, after⟩
  · exact nomatch given
  · obtain ⟨rfl, rfl⟩ := Prod.mk.inj (Except.ok.inj given)
    exact ⟨fewer, rfl, rfl⟩

/-- A loop ends after its first turn, or it has added a row and ends later. -/
theorem complete_succ_eq_ok {fuel count : Nat} {state after : σ} {last : Nat × R} :
    (task.complete (fuel + 1) count).ends state = (.ok last, after) ↔
      ∃ result solved, task.solve.ends state = (.ok result, solved) ∧
        if task.isOptimal (HasStatus.status result) then
          ∃ answer separated, task.separate.ends solved = (.ok answer, separated) ∧
            if Answer.yes answer then
              (task.complete fuel (count + 1)).ends separated = (.ok last, after)
            else ((count, result), separated) = (last, after)
        else ((count, result), solved) = (last, after) := by
  rw [complete, Action.ends_bind_eq_ok]
  refine exists_congr fun result => exists_congr fun solved => and_congr_right fun _ => ?_
  -- Each test decides alike what is done and what is said of it.
  split
  · rw [Action.ends_bind_eq_ok]
    refine exists_congr fun answer => exists_congr fun separated => and_congr_right fun _ => ?_
    split
    · rfl
    · simp
  · simp

/-- A loop that ends goes no further when more turns are granted. -/
theorem complete_mono {fuel more count : Nat} (granted : fuel ≤ more) {state after : σ}
    {last : Nat × R} (ended : (task.complete fuel count).ends state = (.ok last, after)) :
    (task.complete more count).ends state = (.ok last, after) := by
  induction fuel generalizing more count state with
  | zero => simp [complete] at ended
  | succ fuel ih =>
    obtain ⟨more, rfl⟩ : ∃ fewer, more = fewer + 1 := ⟨more - 1, by omega⟩
    rw [complete_succ_eq_ok] at ended ⊢
    obtain ⟨result, solved, first, ended⟩ := ended
    refine ⟨result, solved, first, ?_⟩
    -- Both take the same first turn, and only what follows a new row needs more of them.
    split at ended
    · obtain ⟨answer, separated, second, ended⟩ := ended
      refine (if_pos ‹_›).mpr ⟨answer, separated, second, ?_⟩
      split at ended
      · exact (if_pos ‹_›).mpr (ih (by omega) ended)
      · exact (if_neg ‹_›).mpr ended
    · exact (if_neg ‹_›).mpr ended

/-- Each row that a loop adds takes a turn, and so does its end. -/
theorem count_lt {fuel count : Nat} {state after : σ} {last : Nat × R}
    (ended : (task.complete fuel count).ends state = (.ok last, after)) :
    last.1 < count + fuel := by
  induction fuel generalizing count state with
  | zero => simp [complete] at ended
  | succ fuel ih =>
    obtain ⟨result, solved, -, ended⟩ := complete_succ_eq_ok.1 ended
    -- Where the loop ends at once, its count is the one that it has begun with.
    split at ended
    · obtain ⟨answer, separated, -, ended⟩ := ended
      split at ended
      · have later := ih ended
        omega
      · obtain ⟨rfl, rfl⟩ := Prod.mk.inj ended
        omega
    · obtain ⟨rfl, rfl⟩ := Prod.mk.inj ended
      omega

/-- What the loop still does from a phase on. -/
def rest (task : Task σ R S A) (turns : Nat) : Phase R → Action σ (Nat × R)
  | .before count => task.complete (turns - count) count
  | .solved count result =>
      if task.isOptimal (HasStatus.status result) then do
        if Answer.yes (← task.separate) then task.complete (turns - (count + 1)) (count + 1)
        else return (count, result)
      else return (count, result)
  | .passed count result => return (count, result)

/-- Within the turns a phase ahead of a solve begins with a solve. -/
theorem rest_before {turns count : Nat} (within : count < turns) :
    task.rest turns (.before count) = task.solve >>= fun result =>
      task.rest turns (.solved count result) := by
  obtain ⟨more, rfl⟩ : ∃ more, turns = count + 1 + more := ⟨turns - (count + 1), by omega⟩
  have one : count + 1 + more - count = more + 1 := by omega
  have none : count + 1 + more - (count + 1) = more := by omega
  simp only [rest, one, none, complete]

end Task

namespace Supervisor

variable {task : Task σ R S A} {supervisor : Supervisor τ R S A K}

/-- The course of a supervised run that is still to end as the bare loop ends. -/
def pursuit (shows : supervisor.task.Shows view task) (turns : Nat)
    (aim : Except Interrupt (Nat × R) × σ) : supervisor.task.Course turns where
  holds phase state := (task.rest turns phase).ends (view state) = aim
  failed cause state := (.error cause, view state) = aim
  solves := by
    intro count state within held
    rw [Task.rest_before within] at held
    exact shows.solve.meets_ends held
  separates := by
    intro count result state within held optimal
    -- After a solve that ended as awaited, the rest of the loop begins with a search.
    rw [shows.isOptimal_eq] at optimal
    simp only [Task.rest, optimal, if_true] at held
    refine (shows.separate.meets_ends held).mono fun answer after ahead => ?_
    -- An answer leads to another solve, or to where the loop ends.
    cases yes : Answer.yes answer with
    | true => simpa [yes, Task.rest] using ahead
    | false => simpa [yes, Task.rest] using ahead
  spent := by
    intro state held
    simpa [Task.rest, Task.complete] using held

end Supervisor

/-- A watcher that gives an answer, whatever it is shown, and changes nothing that is in view. -/
def Watcher.Looks (watcher : Watcher τ K S A) (view : τ → σ) : Prop :=
  ∀ isSolved round state, Action.Ensures (watcher isSolved round) state (fun _ => False)
    fun _ after => view after = view state

/-- A watcher that says yes to whatever it is shown, and changes nothing that is in view. -/
def Watcher.Approves (watcher : Watcher τ K S A) (view : τ → σ) : Prop :=
  ∀ isSolved round state, Action.Ensures (watcher isSolved round) state (fun _ => False)
    fun answer after => Answer.yes answer ∧ view after = view state

omit [Status S] in
theorem Watcher.Approves.looks {watcher : Watcher τ K S A} (approves : watcher.Approves view) :
    watcher.Looks view :=
  fun isSolved round state => (approves isSolved round state).mono fun _ _ kept => kept.2

variable [HasObjective R K]

/-- The report of a run that has added some rows and has ended with a result. -/
structure Report.Completes (report : Report K S) (task : Task σ R S A) (count : Nat) (result : R) :
    Prop where
  ending : report.ending =
    if task.isOptimal (HasStatus.status result) then .optimal
    else .ofStatus (HasStatus.status result)
  status : report.status = HasStatus.status result
  objective : report.objective = HasObjective.objective result
  iterations : report.iterations = count + 1
  rowsAdded : report.rowsAdded = count

namespace Supervisor

variable [Scalar K] {task : Task σ R S A} {supervisor : Supervisor τ R S A K} {clock : Clock κ K}
  {time : K → Prop}

/-- The report of a run that has been cut short, and where it has left the loop. -/
structure Interrupts (supervisor : Supervisor τ R S A K) (task : Task σ R S A) (turns : Nat)
    (aim : Except Interrupt (Nat × R) × σ) (report : Report K S) (count : Nat) (state : σ) :
    Prop where
  cuts : supervisor.Cuts report.ending
  iterations : report.iterations = count + 1
  rowsAdded : report.rowsAdded = count + 1
  ahead : (task.complete (turns - (count + 1)) (count + 1)).ends state = aim

/-- A supervised run ends where the bare loop ends, unless it is cut short on the way there. -/
theorem solve_pursues (shows : supervisor.task.Shows view task)
    (timed : supervisor.limits.Timed R clock time fun _ => False)
    (looks : ∀ watcher ∈ supervisor.watchers, Watcher.Looks watcher view) (turns : Nat) (moment : κ)
    {state : τ} {aim : Except Interrupt (Nat × R) × σ}
    (aims : (task.complete turns 0).ends (view state) = aim) :
    (supervisor.solve clock turns).Meets (moment, state)
      (fun report after =>
        (∃ count result, aim = (.ok (count, result), view after.2) ∧
          report.Completes task count result) ∨
        ∃ count, supervisor.Interrupts task turns aim report count (view after.2))
      fun cause after => aim = (.error cause, view after.2) := by
  -- What is still to come is seen by the watchers, but not changed.
  have keeps : supervisor.Keeps (supervisor.pursuit shows turns aim) clock time fun _ => False := by
    refine ⟨timed, fun watcher member isSolved round phase state held => ?_, ?_⟩
    · refine (looks watcher member isSolved round state).meets ?_ fun _ _ refused => refused.elim
      intro answer after same
      simpa only [pursuit, same] using held
    · exact fun _ refused => refused.elim
  refine (keeps.solve_meets aims).imp ?_ fun cause after failure => failure.symm
  rintro ⟨ending, status, objective, _, _, total, solving, separating, rounds⟩ after
    ⟨iterations, rowsAdded, rfl, rfl, closed⟩
  cases closed with
  | @refused count result _ held other =>
    -- Nothing is left of the loop after a solve that ended otherwise.
    rw [shows.isOptimal_eq] at other
    simp only [pursuit, Task.rest, other, Bool.false_eq_true, if_false, Action.ends_pure] at held
    exact .inl ⟨_, result, held.symm, (if_neg (Bool.eq_false_iff.1 other)).symm, rfl, rfl, rfl, rfl⟩
  | @passed count result _ held optimal =>
    -- Nothing is left of it after a search that found nothing either.
    rw [shows.isOptimal_eq] at optimal
    simp only [pursuit, Task.rest, Action.ends_pure] at held
    exact .inl ⟨_, result, held.symm, (if_pos optimal).symm, rfl, rfl, rfl, rfl⟩
  | @cut count _ _ _ _ _ held cuts =>
    -- The rest of the loop is still to be done, one row further on.
    exact .inr ⟨count, cuts, rfl, rfl, held⟩

/-- A run with idle limits, of which all watchers approve, ends where the bare loop ends. -/
theorem solve_completes (shows : supervisor.task.Shows view task)
    (timed : supervisor.limits.Timed R clock time fun _ => False)
    (idle : supervisor.limits.Idle)
    (approves : ∀ watcher ∈ supervisor.watchers, Watcher.Approves watcher view) (turns : Nat)
    (moment : κ) (state : τ) :
    (supervisor.solve clock turns).Meets (moment, state)
      (fun report after => ∃ count result,
        (task.complete turns 0).ends (view state) = (.ok (count, result), view after.2) ∧
          report.Completes task count result)
      fun cause after =>
        (task.complete turns 0).ends (view state) = (.error cause, view after.2) := by
  have looks := fun watcher member => (approves watcher member).looks
  refine (solve_pursues shows timed looks turns moment rfl).mono fun report after ended => ?_
  -- Neither a limit nor a watcher can have cut the run short.
  refine ended.resolve_right fun ⟨count, cut⟩ => idle.not_cuts ?_ _ cut.cuts
  exact fun watcher member isSolved round state answer said =>
    ((approves watcher member isSolved round state).of_ok said).1

end Supervisor

end CuttingPlanes
