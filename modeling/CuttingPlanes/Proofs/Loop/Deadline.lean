import CuttingPlanes.Proofs.Loop.Accounting
import CuttingPlanes.Proofs.Loop.Stopping
import CuttingPlanes.Proofs.Loop.Timing
import Mathlib.Data.Rat.Floor
import Mathlib.Tactic.Linarith
import Mathlib.Tactic.Positivity
import Mathlib.Tactic.Ring

/-! A limit on the time stops a run whose clock moves on, however many rows there are to add. -/

namespace CuttingPlanes

variable {σ κ R S A : Type}

/-- Each reading from a moment on is later than the one before it by a pace at least. -/
def Clock.Advances (clock : Clock κ ℚ) (moment : κ) (pace : ℚ) : Prop :=
  ∀ position, clock.reading moment position + pace ≤ clock.reading moment (position + 1)

namespace Clock.Advances

variable {clock : Clock κ ℚ} {moment : κ} {pace : ℚ}

/-- A number of readings later the time has moved on by that many paces. -/
theorem reading_add_le (advances : clock.Advances moment pace) (position count : Nat) :
    clock.reading moment position + count * pace ≤ clock.reading moment (position + count) := by
  induction count with
  | zero => simp
  | succ count ih =>
    have step := advances (position + count)
    rw [← Nat.add_assoc]
    push_cast
    linarith

/-- Time does not go back. -/
theorem reading_mono (advances : clock.Advances moment pace) (forward : 0 < pace)
    (position count : Nat) :
    clock.reading moment position ≤ clock.reading moment (position + count) := by
  have later := advances.reading_add_le position count
  have paces : 0 ≤ count * pace := by positivity
  linarith

end Clock.Advances

/-- A report that is cut short ends with an iteration that has added a row, like all the others. -/
theorem Report.Accounts.exists_last_added {K : Type} [Scalar K] {isAwaited : S → Bool}
    {solves : Nat} {report : Report K S} (accounts : report.Accounts isAwaited solves)
    (cut : report.ending ∈ [.iterationLimit, .timeLimit, .stopped]) :
    ∃ last ∈ report.rounds.getLast?, last.rowAdded = true := by
  obtain ⟨last, latest, -⟩ := accounts.last
  have all : report.rounds.countP Round.rowAdded = report.rounds.length := by
    have rows := accounts.cut.2 cut
    rw [accounts.rowsAdded, accounts.rounds] at rows
    exact_mod_cast rows
  exact ⟨last, latest, List.countP_eq_length.1 all last (List.mem_of_getLast? latest)⟩

/-- The iteration by which a clock that keeps a pace has used up a limit. -/
def Limits.deadline (limits : Limits ℚ) (pace : ℚ) : Nat := ⌈limits.maxTime / (5 * pace)⌉₊

/-- A value reaches a limit where the limit is positive and no greater. -/
theorem Limits.reached_rat (limit value : ℚ) :
    Limits.reached limit value = decide (0 < limit ∧ limit ≤ value) := by
  simp [Limits.reached, Except.toOption]

namespace Supervisor

section Late

variable {clock : Clock κ ℚ} {moment : κ} {pace : ℚ} {limits : Limits ℚ}

/-- A positive limit leaves room for an iteration. -/
theorem deadline_pos (forward : 0 < pace) (limited : 0 < limits.maxTime) :
    0 < limits.deadline pace :=
  Nat.ceil_pos.2 (by positivity)

/-- At the deadline five readings in every iteration have used up the time. -/
theorem late_at_deadline (advances : clock.Advances moment pace) (forward : 0 < pace)
    (limited : 0 < limits.maxTime) :
    (elapsed clock moment (limits.deadline pace)).toOption.any (Limits.reached limits.maxTime) =
      true := by
  have later := advances.reading_add_le 0 (5 * limits.deadline pace)
  have enough : limits.maxTime ≤ (5 * limits.deadline pace : Nat) * pace := by
    have ceiled := Nat.le_ceil (limits.maxTime / (5 * pace))
    rw [div_le_iff₀ (by positivity)] at ceiled
    calc limits.maxTime ≤ limits.deadline pace * (5 * pace) := ceiled
      _ = (5 * limits.deadline pace : Nat) * pace := by push_cast; ring
  rw [Nat.zero_add] at later
  have late : limits.maxTime ≤
      clock.reading moment (5 * limits.deadline pace) - clock.reading moment 0 := by linarith
  simp [elapsed, Except.toOption, Limits.reached_rat, limited, late]

end Late

variable [HasStatus R S] [HasObjective R ℚ] [Status S] [Answer A]
  {supervisor : Supervisor σ R S A ℚ} {clock : Clock κ ℚ} {moment : κ} {pace : ℚ}

omit [HasStatus R S] [HasObjective R ℚ] [Answer A] in
/-- A run that has stopped at the limit on the time has taken at least that long. -/
theorem Exits.maxTime_le (advances : clock.Advances moment pace) (forward : 0 < pace)
    {round : Round ℚ S} {said : List Bool} {present later : κ} {ending : Ending} {total : ℚ}
    {position : Nat}
    (exits : supervisor.Exits clock (clock.reading moment 0) round said present ending later)
    (limit : ending = .timeLimit)
    (timely : supervisor.task.isOptimal round.status = true → present = clock.later moment position)
    (passed : Scalar.sub (clock.reading later 0) (clock.reading moment 0) = .ok total) :
    supervisor.limits.maxTime ≤ total := by
  cases exits with
  | refused other => exact absurd (limit ▸ Ending.ofStatus_mem round.status) (by decide)
  | time optimal added agreed within taken spent =>
    obtain rfl := timely optimal
    rw [Clock.reading_later, Scalar.sub_rat] at taken
    rw [Clock.later_later, Clock.reading_later, Scalar.sub_rat] at passed
    obtain rfl := Except.ok.inj taken
    obtain rfl := Except.ok.inj passed
    rw [timeSpent_rat, Except.ok.injEq, decide_eq_true_eq] at spent
    -- The last reading comes behind the one that was compared with the limit.
    exact spent.2.trans (sub_le_sub_right (advances.reading_mono forward position 1) _)
  | _ => exact nomatch limit

/-- A run stops by the deadline, and as late as it says where its ending is the limit. -/
theorem sighted_meets_deadline (turns : Nat) (state : σ)
    (advances : clock.Advances moment pace) (forward : 0 < pace)
    (limited : 0 < supervisor.limits.maxTime)
    (solves : supervisor.task.solve.Total) (separates : supervisor.task.separate.Total)
    (watches : ∀ watcher ∈ supervisor.watchers, ∀ isSolved round,
      Action.Total (watcher isSolved round)) :
    (supervisor.sighted.solve clock turns).Meets (moment, [], state)
      (fun report _ => report.iterations ≤ supervisor.limits.deadline pace ∧
        (report.ending = .timeLimit → supervisor.limits.maxTime ≤ report.totalTime))
      fun _ _ => turns < supervisor.limits.deadline pace := by
  have covers : (watching clock moment turns solves separates watches).Covers (fun _ => True)
      fun _ => False := ⟨Limits.timed_rat _ _ _ _, fun _ refused => refused.elim⟩
  have positive := deadline_pos forward limited
  have late := late_at_deadline advances forward limited
  -- One reading has been made when the first iteration begins.
  refine (Chronicle.solve_meets covers ⟨rfl, rfl, rfl⟩).imp ?_ ?_
  · rintro _ after ⟨⟨timely, recorded, count, counted, latest⟩, exits, passed⟩
    refine ⟨?_, fun limit => ?_⟩
    · have short := lt_of_verdict_ne_none latest.verdicts_eq positive
        (verdict_ne_none_of_late late)
      simp only [Progress.report, recorded, counted]
      exact_mod_cast short
    · exact exits.maxTime_le advances forward limit timely passed
  · rintro cause after ⟨-, -, none⟩
    rw [← List.append_nil (List.replicate turns _)] at none
    exact lt_of_verdict_ne_none none positive (verdict_ne_none_of_late late)

/-- How a limit on the time bounds the runs of a supervisor from a moment and a state on. -/
structure EndsBy (supervisor : Supervisor σ R S A ℚ) (clock : Clock κ ℚ) (bound : Nat) (moment : κ)
    (state : σ) : Prop where
  /-- A run that is granted this many turns gives a report. -/
  returns : ∀ turns, bound ≤ turns →
    ∃ report, ((supervisor.solve clock turns).run (moment, state)).result = .ok report
  solves : ∀ turns report,
    ((supervisor.solve clock turns).run (moment, state)).result = .ok report →
      Event.solves (supervisor.invocations clock turns moment state) ≤ bound
  /-- The limit is the ending only behind a row, and when as much time has passed. -/
  late : ∀ turns report,
    ((supervisor.solve clock turns).run (moment, state)).result = .ok report →
      report.ending = .timeLimit →
        (∃ last ∈ report.rounds.getLast?, last.rowAdded = true) ∧
          supervisor.limits.maxTime ≤ report.totalTime

/--
A positive limit on the time bounds the solves of a run whose clock moves on at a pace.

The search may find a row every time; the other limit and the watchers are free.
-/
theorem ends_by_deadline (advances : clock.Advances moment pace) (forward : 0 < pace)
    (limited : 0 < supervisor.limits.maxTime)
    (solves : supervisor.task.solve.Total) (separates : supervisor.task.separate.Total)
    (watches : ∀ watcher ∈ supervisor.watchers, ∀ isSolved round,
      Action.Total (watcher isSolved round)) (state : σ) :
    supervisor.EndsBy clock (supervisor.limits.deadline pace) moment state := by
  have met (turns : Nat) :=
    sighted_meets_deadline turns state advances forward limited solves separates watches
  have same (turns : Nat) : ((supervisor.sighted.solve clock turns).run (moment, [], state)).result =
      ((supervisor.solve clock turns).run (moment, state)).result :=
    (supervisor.shows_sighted.solve clock turns).result_eq (moment, [], state)
  have accounts (turns : Nat) (report : Report ℚ S)
      (given : ((supervisor.solve clock turns).run (moment, state)).result = .ok report) :=
    -- The run that notes its calls gives the same report.
    ((supervisor.announced_meets clock turns moment state).of_ok
      ((supervisor.announced_result clock turns moment state).trans given)).2
  refine ⟨fun turns enough => ?_, fun turns report given => ?_, fun turns report given limit => ?_⟩
  · rcases Action.meets_iff.1 (met turns) with ⟨report, given, -⟩ | ⟨cause, -, short⟩
    · exact ⟨report, (same turns).symm.trans given⟩
    · exact absurd enough short.not_ge
  · have within := ((met turns).of_ok ((same turns).trans given)).1
    rw [(accounts turns report given).solves] at within
    exact_mod_cast within
  · have late := ((met turns).of_ok ((same turns).trans given)).2 limit
    exact ⟨(accounts turns report given).exists_last_added (by simp [limit]), late⟩

/-- A search that finds a row every time, within a limit on the time. -/
def endless : Supervisor Unit (LpAnswer ℚ) LpStatus Bool ℚ where
  task := ⟨pure ⟨.optimal, some 1, [], [], 0, 0, 0⟩, pure true, .optimal⟩
  limits := ⟨0, 7, true, true⟩
  watchers := [fun _ _ => pure true]
  last := none

/-- Five readings in an iteration use up seven units of time in the second one. -/
theorem endless_ends_by_two :
    endless.EndsBy ticking 2 0 () ∧
      (((endless.solve ticking 2).run (0, ())).result.toOption.map Report.ending =
        some .timeLimit) ∧
      Event.solves (endless.invocations ticking 2 0 ()) = 2 := by
  have advances : ticking.Advances 0 1 := fun position => by
    -- One more reading finds the clock one further.
    rw [Clock.reading, Clock.reading, ← Clock.later_later]
    exact le_of_eq (Nat.cast_succ _).symm
  have deadline : endless.limits.deadline 1 = 2 := by
    rw [Limits.deadline, Nat.ceil_eq_iff (by decide)]
    norm_num [endless]
  refine ⟨?_, ?_, ?_⟩
  · rw [← deadline]
    refine ends_by_deadline advances one_pos (by decide) (fun _ => ⟨_, rfl⟩) (fun _ => ⟨_, rfl⟩)
      ?_ ()
    intro watcher member
    rw [List.mem_singleton.1 member]
    exact fun isSolved round state => ⟨_, rfl⟩
  · decide +kernel
  · decide +kernel

end Supervisor

end CuttingPlanes
