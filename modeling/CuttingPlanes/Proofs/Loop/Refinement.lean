import CuttingPlanes.Proofs.Loop.Pursuit
import CuttingPlanes.Proofs.Loop.Trace

/-! A supervised run that nobody cuts short makes the calls of the bare loop and ends as it ends. -/

namespace CuttingPlanes

variable {σ τ ω κ R S A K : Type} {view : τ → σ} [HasStatus R S] [HasObjective R K] [Status S]
  [Answer A] {task : Task σ R S A}

omit [Answer A] in
/-- The report of a completed run says optimal where its last status is the awaited one. -/
theorem Report.Completes.ending_eq_optimal {report : Report K S} {count : Nat} {result : R}
    (completes : report.Completes task count result) :
    report.ending = .optimal ↔ task.isOptimal report.status = true := by
  rw [completes.ending, completes.status]
  -- No status other than the awaited one is mistaken for it.
  split
  · exact iff_of_true rfl ‹_›
  · exact iff_of_false (Ending.ofStatus_ne_optimal _) ‹_›

namespace Supervisor

variable [Scalar K] {clock : Clock κ K} {time : K → Prop}

section Ends

variable {supervisor : Supervisor τ R S A K} (shows : supervisor.task.Shows view task)
  (timed : supervisor.limits.Timed R clock time fun _ => False) (idle : supervisor.limits.Idle)
  (approves : ∀ watcher ∈ supervisor.watchers, Watcher.Approves watcher view) (turns : Nat)
  (moment : κ) (state : τ)

include shows timed idle approves

/-- A run that nobody cuts short gives the status, or the failure, that the bare loop gives. -/
theorem alternate_ends :
    (task.alternate turns).ends (view state) =
      (Report.status <$> ((supervisor.solve clock turns).run (moment, state)).result,
        view ((supervisor.solve clock turns).run (moment, state)).state.2) := by
  rw [Task.alternate_eq turns 0, Action.ends_map]
  -- The last result is where both have got it from.
  rcases Action.meets_iff.1 (solve_completes shows timed idle approves turns moment state) with
    ⟨report, given, count, result, ended, completes⟩ | ⟨cause, failed, ended⟩
  · rw [ended, given]
    exact Prod.ext (congrArg Except.ok completes.status.symm) rfl
  · rw [ended, failed]
    rfl

/-- A run that nobody cuts short says optimal where its last status is the awaited one. -/
theorem ending_eq_optimal {report : Report K S}
    (given : ((supervisor.solve clock turns).run (moment, state)).result = .ok report) :
    report.ending = .optimal ↔ task.isOptimal report.status = true := by
  obtain ⟨count, result, -, completes⟩ :=
    (solve_completes shows timed idle approves turns moment state).of_ok given
  exact completes.ending_eq_optimal

end Ends

/-- A supervised run, whose watchers have a state of their own, and the bare run of its task. -/
structure Refines (supervisor : Supervisor (ω × σ) R S A K) (task : Task σ R S A)
    (clock : Clock κ K) (turns : Nat) (moment : κ) (own : ω) (state : σ) : Prop where
  /-- The calls are the same, in the same order. -/
  calls : supervisor.callsOf clock turns moment (own, state) = task.callsOf turns state
  /-- The calls leave the same state behind. -/
  after : ((supervisor.solve clock turns).run (moment, own, state)).state.2.2 =
    ((task.alternate turns).run state).state
  /-- Both give the same last status, or fail for the same cause. -/
  result : Report.status <$> ((supervisor.solve clock turns).run (moment, own, state)).result =
    ((task.alternate turns).run state).result
  ending : ∀ report, ((supervisor.solve clock turns).run (moment, own, state)).result = .ok report →
    (report.ending = .optimal ↔ task.isOptimal report.status = true)

/--
A run without a positive limit, of which every watcher approves, refines the bare loop.

Within any number of turns both make the same calls, so that one of them comes to an end where the
other one does.
-/
theorem refines_alternate (task : Task σ R S A) {supervisor : Supervisor (ω × σ) R S A K}
    (same : supervisor.task = task.onSecond)
    (timed : supervisor.limits.Timed R clock time fun _ => False) (idle : supervisor.limits.Idle)
    (approves : ∀ watcher ∈ supervisor.watchers, Watcher.Approves watcher Prod.snd) (moment : κ)
    (own : ω) (state : σ) :
    (∀ turns, supervisor.Refines task clock turns moment own state) ∧
      ((∃ turns, ((supervisor.solve clock turns).run (moment, own, state)).result ≠
          .error .unfinished) ↔
        ∃ turns, ((task.alternate turns).run state).result ≠ .error .unfinished) := by
  have shows : supervisor.task.Shows Prod.snd task := same ▸ task.shows_onSecond
  have refines : ∀ turns, supervisor.Refines task clock turns moment own state := by
    intro turns
    have ends := alternate_ends shows timed idle approves turns moment (own, state)
    refine ⟨?_, (congrArg Prod.snd ends).symm, (congrArg Prod.fst ends).symm,
      fun report => ending_eq_optimal shows timed idle approves turns moment (own, state)⟩
    -- Noting the calls is a task as well, and its watchers approve as they did before.
    have approved : ∀ watcher ∈ supervisor.traced.watchers,
        Watcher.Approves watcher (Prod.map (id : List Event → List Event) Prod.snd) := by
      intro watcher member
      obtain ⟨plain, among, rfl⟩ := List.mem_map.1 member
      intro isSolved round state
      refine Action.ensures_onSecond.2 ((approves plain among isSolved round state.2).mono ?_)
      exact fun answer after kept => ⟨kept.1, Prod.ext rfl kept.2⟩
    have traced : supervisor.traced.task.Shows _ task.traced := shows.traced
    have noted := alternate_ends traced timed idle approved turns moment ([], own, state)
    exact (congrArg (fun ended => ended.2.1) noted).symm
  refine ⟨refines, exists_congr fun turns => not_congr ?_⟩
  -- A report is no failure, and a failure is the same on both sides.
  rw [← (refines turns).result]
  cases ((supervisor.solve clock turns).run (moment, own, state)).result with
  | ok report => simp
  | error cause => simp

end Supervisor

/-- A task that finds as many violated rows as its state says, and then no more. -/
def Task.countdown {R S : Type} (result : R) (optimal : S) : Task Nat R S Bool where
  solve := return result
  separate := do
    let left ← Action.get
    Action.set (left - 1)
    return 0 < left
  optimal := optimal

namespace Supervisor

/-- A countdown whose results are statuses of some kind beside an objective. -/
def counting : Task Nat AnyResult AnyStatus Bool :=
  .countdown (.object (.lp .optimal) (some (.int 1))) (.lp .optimal)

/-- The countdown, watched without a limit by someone who counts what there is to see. -/
def counted : Supervisor (Nat × Nat) AnyResult AnyStatus Bool Datum where
  task := counting.onSecond
  limits := ⟨.int (-1), .int 0, true, false⟩
  watchers := [fun _ _ => do
    Action.modify fun state => (state.1 + 1, state.2)
    return true]
  last := none

/-- A watched countdown makes the calls of the bare one. -/
theorem refines_counted :
    (∀ turns, counted.Refines counting
        (fun moment : Nat => (.float moment.toFloat, moment + 1)) turns 0 0 3) ∧
      ((∃ turns, ((counted.solve (fun moment : Nat => (.float moment.toFloat, moment + 1))
          turns).run (0, 0, 3)).result ≠ .error .unfinished) ↔
        ∃ turns, ((counting.alternate turns).run 3).result ≠ .error .unfinished) := by
  have unheard : ¬counted.limits.isHeard := Bool.false_ne_true
  refine refines_alternate counting rfl
    (Limits.timed_datum AnyResult (fun moment => ⟨_, rfl⟩) rfl rfl
      (fun heard => (unheard heard).elim) fun heard => (unheard heard).elim) ⟨by rfl, by rfl⟩ ?_ 0 0 3
  intro watcher member
  -- There is only one watcher, and it looks at nothing.
  rw [List.mem_singleton.1 member]
  exact fun isSolved round state => ⟨rfl, rfl⟩

end Supervisor

end CuttingPlanes
