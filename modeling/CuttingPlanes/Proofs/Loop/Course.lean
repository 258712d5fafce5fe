import CuttingPlanes.Proofs.Loop.Chronicle

/-! What holds along a loop, bare or supervised, up to each of its ends. -/

namespace CuttingPlanes

variable {σ κ R S A K : Type}

/-- A status other than the awaited one never ends a run well. -/
theorem Ending.ofStatus_ne_optimal {S : Type} [Status S] (status : S) :
    Ending.ofStatus status ≠ .optimal := by
  unfold Ending.ofStatus
  split <;> simp

/-- How far a loop has come, by the number of rows that it has added. -/
inductive Task.Phase (R : Type) where
  /-- Ahead of a solve. -/
  | before (count : Nat)
  /-- After a solve with its result. -/
  | solved (count : Nat) (result : R)
  /-- After a search that has found nothing to add. -/
  | passed (count : Nat) (result : R)

variable [HasStatus R S] [Status S] [Answer A]

/-- What holds between the steps of a loop within its turns, and what a failing step leaves. -/
structure Task.Course (task : Task σ R S A) (turns : Nat) where
  holds : Task.Phase R → σ → Prop
  failed : Interrupt → σ → Prop
  solves : ∀ {count state}, count < turns → holds (.before count) state →
    Action.Meets task.solve state (fun result after => holds (.solved count result) after) failed
  separates : ∀ {count result state}, count < turns → holds (.solved count result) state →
    task.isOptimal (HasStatus.status result) →
    Action.Meets task.separate state (fun answer after =>
      holds (if Answer.yes answer then .before (count + 1) else .passed count result) after) failed
  spent : ∀ {state}, holds (.before turns) state → failed .unfinished state

namespace Task.Course

variable {task : Task σ R S A} {turns : Nat}

/-- The bare loop ends after a solve that ended otherwise, or after a search that found nothing. -/
theorem alternate_meets (course : task.Course turns) {fuel count : Nat}
    (granted : fuel + count = turns) {state : σ} (held : course.holds (.before count) state) :
    Action.Meets (task.alternate fuel) state (fun status after =>
      ∃ count result, status = HasStatus.status result ∧
        if task.isOptimal status then course.holds (.passed count result) after
        else course.holds (.solved count result) after) course.failed := by
  -- One turn less is left for one more row.
  induction fuel generalizing count state with
  | zero =>
    obtain rfl : count = turns := by omega
    simpa [alternate] using course.spent held
  | succ fuel ih =>
    have within : count < turns := by omega
    simp only [alternate, Action.meets_bind]
    refine (course.solves within held).mono fun result after solved => ?_
    cases optimal : task.isOptimal (HasStatus.status result) with
    | false =>
      simp only [Bool.false_eq_true, if_false, Action.meets_pure]
      exact ⟨count, result, rfl, by simpa [optimal] using solved⟩
    | true =>
      simp only [if_true, Action.meets_bind]
      refine (course.separates within solved optimal).mono fun answer last separated => ?_
      cases yes : Answer.yes answer with
      | true =>
        have later : fuel + (count + 1) = turns := by omega
        exact ih later (by simpa [yes] using separated)
      | false =>
        simp only [yes, Bool.false_eq_true, if_false, Action.meets_pure] at separated ⊢
        exact ⟨count, result, rfl, by simpa [optimal] using separated⟩

end Task.Course

namespace Supervisor

variable [Scalar K] [HasObjective R K]

/-- Why a run is cut short after a row: a watcher refuses, or a limit is reached. -/
inductive Cuts (supervisor : Supervisor σ R S A K) : Ending → Prop
  | stopped {watcher isSolved round state answer} (member : watcher ∈ supervisor.watchers)
      (said : ((watcher isSolved round).run state).result = .ok answer)
      (no : Answer.yes answer = false) : Cuts supervisor .stopped
  | iterations {count} (spent : iterationsSpent supervisor.limits count = .ok true) :
      Cuts supervisor .iterationLimit
  | time {elapsed} (spent : timeSpent supervisor.limits elapsed = .ok true) :
      Cuts supervisor .timeLimit

/-- A supervisor adds nothing to a course but failures that the course accounts for. -/
structure Keeps {turns : Nat} (supervisor : Supervisor σ R S A K)
    (course : supervisor.task.Course turns) (clock : Clock κ K) (time : K → Prop)
    (refusable : Fault → Prop) : Prop where
  timed : supervisor.limits.Timed R clock time refusable
  watched : ∀ watcher ∈ supervisor.watchers, ∀ isSolved round {phase state},
    course.holds phase state →
      Action.Meets (watcher isSolved round) state (fun _ after => course.holds phase after)
        course.failed
  breaks : ∀ {phase state fault}, course.holds phase state → refusable fault →
    course.failed (.raised fault) state

variable {supervisor : Supervisor σ R S A K} {turns : Nat} {course : supervisor.task.Course turns}
  {clock : Clock κ K} {time : K → Prop} {refusable : Fault → Prop} {moment : κ} {state : σ}
  {start : K}

/-- The ways in which a run may end, with the last answer and the counts that it reports. -/
inductive Closed (course : supervisor.task.Course turns) :
    (ending : Ending) → (status : S) → (objective : Option K) → (iterations rowsAdded : Nat) →
      σ → Prop
  | refused {count result state} (held : course.holds (.solved count result) state)
      (other : supervisor.task.isOptimal (HasStatus.status result) = false) :
      Closed course (.ofStatus (HasStatus.status result)) (HasStatus.status result)
        (HasObjective.objective result) (count + 1) count state
  | passed {count result state} (held : course.holds (.passed count result) state)
      (optimal : supervisor.task.isOptimal (HasStatus.status result)) :
      Closed course .optimal (HasStatus.status result) (HasObjective.objective result) (count + 1)
        count state
  | cut {count ending status objective state} (within : count < turns)
      (held : course.holds (.before (count + 1)) state) (cuts : supervisor.Cuts ending) :
      Closed course ending status objective (count + 1) (count + 1) state

/-- Some phase of a course holds wherever a run may end. -/
theorem Closed.exists_holds {ending : Ending} {status : S} {objective : Option K}
    {iterations rowsAdded : Nat}
    (closed : Closed course ending status objective iterations rowsAdded state) :
    ∃ phase, course.holds phase state := by
  cases closed with
  | refused held => exact ⟨_, held⟩
  | passed held => exact ⟨_, held⟩
  | cut within held => exact ⟨_, held⟩

/-- A report of one of the ways in which a run may end. -/
def Reports (course : supervisor.task.Course turns) (report : Report K S) (state : σ) : Prop :=
  ∃ iterations rowsAdded : Nat, report.iterations = iterations ∧ report.rowsAdded = rowsAdded ∧
    Closed course report.ending report.status report.objective iterations rowsAdded state

/-- What holds of an iteration that has been recorded, whose watchers have given some answers. -/
structure Recorded (course : supervisor.task.Course turns) (progress : Progress K S)
    (round : Round K S) (said : List Bool) (count : Nat) (result : R) (state : σ) : Prop where
  within : count < turns
  rounds : progress.rounds.length = count + 1
  rowsAdded : progress.rowsAdded = count + if round.rowAdded then 1 else 0
  status : round.status = HasStatus.status result
  objective : round.objective = HasObjective.objective result
  optimal : round.rowAdded = true → supervisor.task.isOptimal round.status = true
  refusal : said.all id = false → supervisor.Cuts .stopped
  held : course.holds (if supervisor.task.isOptimal round.status then
    if round.rowAdded then .before (count + 1) else .passed count result
      else .solved count result) state

/-- A course tells how far its run has come, with as many rows as there were iterations before. -/
def Keeps.chronicle (keeps : supervisor.Keeps course clock time refusable) (start : K) :
    supervisor.Chronicle clock start turns where
  holds
    | .before progress, _, state =>
        progress.rowsAdded = progress.rounds.length ∧
          course.holds (.before progress.rounds.length) state
    | .solved progress result, _, state =>
        (progress.rounds.length < turns ∧ progress.rowsAdded = progress.rounds.length) ∧
          course.holds (.solved progress.rounds.length result) state
    | .searched progress result _ rowAdded, _, state =>
        (progress.rounds.length < turns ∧ progress.rowsAdded = progress.rounds.length) ∧
          supervisor.task.isOptimal (HasStatus.status result) = true ∧
            course.holds (if rowAdded then .before (progress.rounds.length + 1)
              else .passed progress.rounds.length result) state
    | .shown progress round said, _, state =>
        ∃ count result, Recorded course progress round said count result state
  failed := course.failed
  solves := by
    rintro progress moment state within ⟨rows, held⟩
    exact (course.solves within held).mono fun result after solved => ⟨⟨within, rows⟩, solved⟩
  separates := by
    rintro progress result moment state taken spent ⟨⟨within, rows⟩, held⟩ optimal -
    refine (course.separates within held optimal).mono fun answer after separated => ?_
    exact ⟨⟨within, rows⟩, optimal, separated⟩
  refuses := by
    rintro progress result moment state taken spent ⟨⟨within, rows⟩, held⟩ other -
    -- Another status leaves the run where the solve has left it.
    refine ⟨_, result, within, by simp [Progress.recorded], rows, rfl, rfl, nofun, nofun, ?_⟩
    simpa [Progress.next, other] using held
  records := by
    rintro progress result taken added moment state lasted spent ⟨⟨within, rows⟩, optimal, held⟩ -
    refine ⟨_, result, within, by simp [Progress.searched], ?_, rfl, rfl, fun _ => optimal, nofun,
      ?_⟩
    · simp [Progress.searched, Progress.next, rows]
    · rw [if_pos (by exact optimal)]
      exact held
  watches := by
    rintro watcher member progress round said moment state ⟨count, result, recorded⟩
    -- A watcher that refuses is one of those that cut the run short.
    refine (keeps.watched watcher member _ round recorded.held).outcome.mono ?_
    rintro answer after ⟨held, answered⟩
    refine ⟨count, result, { recorded with refusal := fun refused => ?_, held := held }⟩
    cases yes : Answer.yes answer with
    | true => exact recorded.refusal (by simpa [yes] using refused)
    | false => exact .stopped member answered yes
  goesOn := by
    rintro progress round said moment state ⟨count, result, recorded⟩ continues
    have held := recorded.held
    rw [if_pos continues.optimal, if_pos continues.added] at held
    -- The iteration that goes on has added a row.
    refine ⟨?_, recorded.rounds ▸ held⟩
    rw [recorded.rowsAdded, recorded.rounds, if_pos continues.added]
  spent := by
    rintro progress moment state all ⟨-, held⟩
    exact course.spent (all ▸ held)

/-- An iteration that is recorded closes the run where the run stops after it. -/
theorem Recorded.closed {progress : Progress K S} {round : Round K S} {said : List Bool}
    {count : Nat} {result : R} (recorded : Recorded course progress round said count result state)
    {start : K} {moment later : κ} {ending : Ending}
    (exits : supervisor.Exits clock start round said moment ending later) :
    Closed course ending round.status round.objective progress.rounds.length progress.rowsAdded
      state := by
  obtain ⟨within, rounds, rowsAdded, status, objective, adds, refusal, held⟩ := recorded
  rw [rounds, rowsAdded, status, objective]
  rw [status] at adds held
  cases exits with
  | refused other =>
    rw [status] at other ⊢
    have none : round.rowAdded = false := by
      cases added : round.rowAdded with
      | false => rfl
      | true => simp [adds added] at other
    simpa [none] using Closed.refused (by simpa [other] using held) other
  | passed optimal none =>
    rw [status] at optimal
    simpa [none] using Closed.passed (by simpa [optimal, none] using held) optimal
  | stopped optimal added no =>
    rw [status] at optimal
    simpa [added] using Closed.cut within (by simpa [optimal, added] using held) (refusal no)
  | iterations optimal added agreed spent =>
    rw [status] at optimal
    simpa [added] using
      Closed.cut within (by simpa [optimal, added] using held) (.iterations spent)
  | time optimal added agreed early taken spent =>
    rw [status] at optimal
    simpa [added] using Closed.cut within (by simpa [optimal, added] using held) (.time spent)

/-- A supervised run ends in a report that its course leaves, or fails as accounted for. -/
theorem Keeps.solve_meets (keeps : supervisor.Keeps course clock time refusable)
    (held : course.holds (.before 0) state) :
    Action.Meets (supervisor.solve clock turns) (moment, state)
      (fun report after => Reports course report after.2)
      fun cause after => course.failed cause after.2 := by
  have covers : (keeps.chronicle (clock.reading moment 0)).Covers time refusable := by
    refine ⟨keeps.timed, fun {stage} _ _ _ held refused => ?_⟩
    -- Some phase of the course holds at every stage.
    cases stage with
    | before progress => exact keeps.breaks held.2 refused
    | solved progress result => exact keeps.breaks held.2 refused
    | searched progress result taken added => exact keeps.breaks held.2.2 refused
    | shown progress round said =>
      obtain ⟨count, result, recorded⟩ := held
      exact keeps.breaks recorded.held refused
  refine (Chronicle.solve_meets covers ⟨rfl, held⟩).mono ?_
  rintro _ after ⟨⟨count, result, recorded⟩, exits, -⟩
  exact ⟨_, _, rfl, rfl, recorded.closed exits⟩

end Supervisor

end CuttingPlanes
