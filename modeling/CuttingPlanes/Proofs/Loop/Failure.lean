import CuttingPlanes.Proofs.Loop.Accounting

/-! Runs that fail: what they have called by then, and what they leave behind. -/

namespace CuttingPlanes

variable {σ κ R S A K : Type}

/-- A failure of the call behind some number of calls, with what it does to the state. -/
structure Blow (σ : Type) where
  earlier : Nat
  damage : σ → σ
  fault : Fault

namespace Action

variable {α β : Type}

/-- A computation that notes its call, and fails instead if this is the call that is struck. -/
def struck (blow : Blow σ) (event : Event) (action : Action σ α) : Action (List Event × σ) α := do
  let calls := (← Action.get).1
  Task.note event
  if calls.length = blow.earlier then
    Action.modify fun state => (state.1, blow.damage state.2)
    Action.raise blow.fault
  else action.onSecond

/-- The call that is struck has been noted when it fails. -/
theorem run_struck_of_eq {blow : Blow σ} {event : Event} {action : Action σ α}
    {calls : List Event} (now : calls.length = blow.earlier) (state : σ) :
    (struck blow event action).run (calls, state) =
      ⟨.error (.raised blow.fault), (calls ++ [event], blow.damage state), []⟩ := by
  simp [struck, Task.note, run_bind, now]

theorem run_struck_of_ne {blow : Blow σ} {event : Event} {action : Action σ α}
    {calls : List Event} (other : calls.length ≠ blow.earlier) (state : σ) :
    (struck blow event action).run (calls, state) =
      (announced event action).run (calls, state) := by
  simp [struck, announced, Task.note, run_bind, other]

/--
A computation in which one call fails, beside the same one in which that call does not.

Both note their calls, and up to the call that fails both are the same.
-/
structure Strikes (earlier : Nat) (fault : Fault) (left calm : Action (κ × List Event × σ) α) :
    Prop where
  grows : ∀ state, state.2.1 <+: (calm.run state).state.2.1
  spared : ∀ state, (calm.run state).state.2.1.length ≤ earlier → left.run state = calm.run state
  hit : ∀ state, state.2.1.length ≤ earlier → earlier < (calm.run state).state.2.1.length →
    (left.run state).result = .error (.raised fault) ∧
      (left.run state).state.2.1 = (calm.run state).state.2.1.take (earlier + 1)

variable {earlier : Nat} {fault : Fault}

/-- Nothing fails in a computation without calls. -/
theorem strikes_of_quiet {action : Action (κ × List Event × σ) α}
    (quiet : ∀ state, (action.run state).state.2.1 = state.2.1) :
    Strikes earlier fault action action where
  grows state := ⟨[], (List.append_nil _).trans (quiet state).symm⟩
  spared _ _ := rfl
  hit state within beyond := by
    -- There would have to be one call more than there was.
    rw [quiet state] at beyond
    omega

/-- Calls are made by the second of two computations only if none has failed in the first one. -/
theorem Strikes.bind {left calm : Action (κ × List Event × σ) α}
    {later next : α → Action (κ × List Event × σ) β} (first : Strikes earlier fault left calm)
    (second : ∀ value, Strikes earlier fault (later value) (next value)) :
    Strikes earlier fault (left >>= later) (calm >>= next) where
  grows state := by
    have begun := first.grows state
    rw [run_bind]
    -- The second one notes its calls behind those of the first one.
    cases given : (calm.run state).result with
    | error cause => exact begun
    | ok value => exact begun.trans ((second value).grows _)
  spared state within := by
    have same := first.spared state
    rw [run_bind] at within
    rw [run_bind, run_bind]
    cases given : (calm.run state).result with
    | error cause =>
      rw [given] at within
      rw [same within, given]
    | ok value =>
      rw [given] at within
      -- The first one makes no more calls than both do.
      have short := ((second value).grows _).length_le.trans within
      rw [same short, given]
      simp only
      rw [(second value).spared _ within]
  hit state within beyond := by
    rw [run_bind] at beyond
    rw [run_bind, run_bind]
    cases given : (calm.run state).result with
    | error cause =>
      rw [given] at beyond
      -- The calm run fails for another cause, but not before the call that is struck.
      obtain ⟨failed, calls⟩ := first.hit state within beyond
      rw [failed]
      exact ⟨rfl, calls⟩
    | ok value =>
      rw [given] at beyond
      by_cases struck : earlier < (calm.run state).state.2.1.length
      · -- The call fails in the first one, and the second one is not begun.
        obtain ⟨failed, calls⟩ := first.hit state within struck
        obtain ⟨more, grown⟩ := (second value).grows (calm.run state).state
        rw [failed]
        refine ⟨rfl, ?_⟩
        simp only
        rw [calls, ← grown, List.take_append_of_le_length struck]
      · -- The first one is spared, so that the call fails in the second one.
        have short := Nat.le_of_not_lt struck
        obtain ⟨failed, calls⟩ := (second value).hit (calm.run state).state short beyond
        rw [first.spared state short, given]
        exact ⟨failed, calls⟩

/-- The call that is struck is the one behind the given number of calls. -/
theorem strikes_struck (blow : Blow σ) (event : Event) (action : Action σ α) :
    Strikes blow.earlier blow.fault (struck blow event action : Action _ _).onSecond
      ((announced event action).onSecond : Action (κ × List Event × σ) α) where
  grows state := List.prefix_append state.2.1 [event]
  spared state within := by
    obtain ⟨moment, calls, state⟩ := state
    -- The call is noted as one of those that are spared.
    have noted : (calls ++ [event]).length ≤ blow.earlier := within
    have other : calls.length ≠ blow.earlier := by
      rw [List.length_append, List.length_singleton] at noted
      omega
    rw [run_onSecond, run_onSecond, run_struck_of_ne other]
  hit state within beyond := by
    obtain ⟨moment, calls, state⟩ := state
    have noted : blow.earlier < (calls ++ [event]).length := beyond
    have now : calls.length = blow.earlier := by
      have short : calls.length ≤ blow.earlier := within
      rw [List.length_append, List.length_singleton] at noted
      omega
    rw [run_onSecond, run_struck_of_eq now]
    refine ⟨rfl, ?_⟩
    -- Nothing is called behind the failure.
    show calls ++ [event] = (calls ++ [event]).take (blow.earlier + 1)
    rw [← now, List.take_of_length_le (by simp)]

end Action

namespace Supervisor

/-- A supervisor that notes its calls, one of which fails. -/
def struck (supervisor : Supervisor σ R S A K) (blow : Blow σ) :
    Supervisor (List Event × σ) R S A K :=
  supervisor.wrapped (Action.struck blow)

theorem strikes_related (supervisor : Supervisor σ R S A K) (blow : Blow σ) (clock : Clock κ K) :
    Related (Action.Strikes blow.earlier blow.fault) clock (supervisor.struck blow)
      supervisor.announced where
  congruence :=
    { pure := fun _ => Action.strikes_of_quiet fun _ => rfl
      bind := fun first => first.bind
      raise := fun _ => Action.strikes_of_quiet fun _ => rfl
      unfinished := Action.strikes_of_quiet fun _ => rfl
      report := fun _ => Action.strikes_of_quiet fun _ => rfl }
  reads := Action.strikes_of_quiet fun _ => rfl
  solve := Action.strikes_struck blow .solve supervisor.task.solve
  separate := Action.strikes_struck blow .separate supervisor.task.separate
  optimal := rfl
  limits := rfl
  watchers := by
    rw [List.forall₂_iff_get]
    refine ⟨by simp [struck, announced, wrapped], fun position left right round => ?_⟩
    -- At every position there is one watcher, wrapped in two ways.
    simp only [struck, announced, wrapped, List.get_eq_getElem, List.getElem_mapIdx]
    exact Action.strikes_struck blow _ _

variable [HasStatus R S] [HasObjective R K] [Status S] [Answer A] [Scalar K]

/-- Only a run that gives a report changes its supervisor. -/
theorem run_solveAndKeep (supervisor : Supervisor σ R S A K) (clock : Clock κ K) (fuel : Nat)
    (state : κ × σ) :
    (solveAndKeep clock fuel).run (supervisor, state) =
      ⟨((supervisor.solve clock fuel).run state).result,
        ({ supervisor with last :=
            ((supervisor.solve clock fuel).run state).result.toOption.or supervisor.last },
          ((supervisor.solve clock fuel).run state).state),
        ((supervisor.solve clock fuel).run state).log⟩ := by
  simp only [solveAndKeep, Action.run_bind, Action.run_get, Action.run_onSecond,
    Action.run_modify, Action.run_pure]
  -- A failure hides the step that keeps the report.
  cases ((supervisor.solve clock fuel).run state).result with
  | ok report => simp [Except.toOption]
  | error cause => simp [Except.toOption]

/-- What becomes of a run in which some call fails, and what every run is told and reports. -/
structure FailsCleanly (supervisor : Supervisor σ R S A K) (clock : Clock κ K) (fuel : Nat)
    (moment : κ) (state : σ) : Prop where
  /-- The calls before the failure are those of the run without it. -/
  struck : ∀ blow : Blow σ, blow.earlier < (supervisor.invocations clock fuel moment state).length →
    let outcome := (solveAndKeep clock fuel).run (supervisor.struck blow, moment, [], state)
    outcome.result = .error (.raised blow.fault) ∧ outcome.state.1 = supervisor.struck blow ∧
      outcome.state.2.2.1 =
        (supervisor.invocations clock fuel moment state).take (blow.earlier + 1)
  /-- Iterations are counted from the first solve of the run. -/
  told : Event.Told supervisor.isSolved (supervisor.invocations clock fuel moment state)
  accounts : ∀ report, ((supervisor.solve clock fuel).run (moment, state)).result = .ok report →
    report.Accounts supervisor.task.isOptimal
      (Event.solves (supervisor.invocations clock fuel moment state))

theorem failsCleanly (supervisor : Supervisor σ R S A K) (clock : Clock κ K) (fuel : Nat)
    (moment : κ) (state : σ) : supervisor.FailsCleanly clock fuel moment state where
  struck := by
    intro blow within
    -- The runs with and without the failure are related as their calls are.
    have strikes := (supervisor.strikes_related blow clock).run fuel
    obtain ⟨failed, calls⟩ := strikes.hit (moment, [], state) (Nat.zero_le _) within
    rw [run_solveAndKeep, failed]
    exact ⟨rfl, rfl, calls⟩
  told := by
    have met := supervisor.announced_meets clock fuel moment state
    rcases Action.meets_iff.1 met with ⟨report, -, told, -⟩ | ⟨cause, -, told⟩
    · exact told
    · exact told
  accounts report given := by
    rw [← supervisor.announced_result clock fuel moment state] at given
    exact ((supervisor.announced_meets clock fuel moment state).of_ok given).2

/-- A step of a session with a supervisor. -/
inductive Step (σ S A K : Type) where
  | solve
  | watch (watcher : Watcher σ K S A)

namespace Step

/-- What a step does; a run that is made gives its report. -/
def perform (clock : Clock κ K) (fuel : Nat) :
    Step σ S A K → Action (Supervisor σ R S A K × (κ × σ)) (Option (Report K S))
  | solve => some <$> solveAndKeep clock fuel
  | watch watcher => do
      Action.modify fun state => (state.1.watchedBy watcher, state.2)
      return none

/-- The watcher that a step adds. -/
def watcher? : Step σ S A K → Option (Watcher σ K S A)
  | solve => none
  | watch watcher => some watcher

/-- The reports of some steps, one after another. -/
def reports (clock : Clock κ K) (fuel : Nat) (steps : List (Step σ S A K))
    (begun : Supervisor σ R S A K × (κ × σ)) : List (Report K S) :=
  (Action.trail (steps.map (perform clock fuel)) begun).filterMap
    fun outcome => outcome.result.toOption.join

/-- What some steps leave behind, one after another, whether they fail or not. -/
def leave (clock : Clock κ K) (fuel : Nat) (steps : List (Step σ S A K)) :
    Supervisor σ R S A K × (κ × σ) → Supervisor σ R S A K × (κ × σ) :=
  Action.leave (steps.map (perform clock fuel))

/-- A step is followed by the others in the state that it leaves. -/
theorem reports_cons (clock : Clock κ K) (fuel : Nat) (step : Step σ S A K)
    (rest : List (Step σ S A K)) (state : Supervisor σ R S A K × (κ × σ)) :
    reports clock fuel (step :: rest) state =
      ((step.perform clock fuel).run state).result.toOption.join.toList ++
        reports clock fuel rest ((step.perform clock fuel).run state).state := by
  rw [reports, List.map_cons, Action.trail, List.filterMap_cons]
  -- A step without a report adds nothing to the list.
  show _ = ((step.perform clock fuel) state).result.toOption.join.toList ++ _
  cases ((step.perform clock fuel) state).result.toOption.join with
  | none => rfl
  | some report => rfl

theorem run_perform_watch (clock : Clock κ K) (fuel : Nat) (watcher : Watcher σ K S A)
    (supervisor : Supervisor σ R S A K) (state : κ × σ) :
    ((watch watcher).perform clock fuel).run (supervisor, state) =
      ⟨.ok none, (supervisor.watchedBy watcher, state), []⟩ := rfl

theorem run_perform_solve (clock : Clock κ K) (fuel : Nat) (supervisor : Supervisor σ R S A K)
    (state : κ × σ) :
    ((solve : Step σ S A K).perform clock fuel).run (supervisor, state) =
      ⟨some <$> ((supervisor.solve clock fuel).run state).result,
        ((solveAndKeep clock fuel).run (supervisor, state)).state,
        ((supervisor.solve clock fuel).run state).log⟩ := by
  -- The report is handed on as it is.
  show ((solveAndKeep clock fuel) >>= fun report => pure (some report)).run _ = _
  rw [Action.run_bind, run_solveAndKeep]
  cases ((supervisor.solve clock fuel).run state).result with
  | ok report => simp
  | error cause => rfl

/-- Some steps add their watchers, and keep the last report that was made. -/
theorem leave_fst (clock : Clock κ K) (fuel : Nat) (steps : List (Step σ S A K))
    (supervisor : Supervisor σ R S A K) (state : κ × σ) :
    (leave clock fuel steps (supervisor, state)).1 =
      { supervisor with
        watchers := supervisor.watchers ++ steps.filterMap watcher?
        last := (reports clock fuel steps (supervisor, state)).getLast?.or supervisor.last } := by
  -- Each step is made in the state that the ones before it have left, whether they failed or not.
  induction steps generalizing supervisor state with
  | nil => simp [leave, Action.leave, reports, Action.trail]
  | cons step rest ih =>
    rw [leave, List.map_cons, Action.leave, ← leave, reports_cons]
    cases step with
    | watch watcher =>
      -- The new watcher comes behind those of before, and nothing is reported.
      rw [run_perform_watch, ih]
      simp [watchedBy, watcher?, Except.toOption]
    | solve =>
      rw [run_perform_solve, run_solveAndKeep, ih]
      -- A report takes the place of the last one, and a failure leaves that one.
      cases ((supervisor.solve clock fuel).run state).result with
      | ok report => simp [watcher?, Except.toOption, List.filterMap_cons, List.getLast?_cons]
      | error cause => simp [watcher?, Except.toOption, List.filterMap_cons]

end Step

/--
A failing run leaves everything as the last run left it that gave a report.

After any steps, which may fail or not, the supervisor has that report, or none if there was none.
In the next run any call may fail, be it of the solve, of the search or of a watcher: its fault
comes out as it is, the calls up to it are those of the run in which it does not fail, and the
supervisor stays as it is. Whatever has failed before, the run counts its iterations from one.
-/
theorem failures_are_atomic (task : Task σ R S A) (limits : Limits K) (clock : Clock κ K)
    (fuel : Nat) (steps : List (Step σ S A K)) (moment : κ) (state : σ) :
    let begun : Supervisor σ R S A K × (κ × σ) := (ofTask task limits, moment, state)
    let reports := Step.reports clock fuel steps begun
    let reached := Step.leave clock fuel steps begun
    reached.1 = ⟨task, limits, steps.filterMap Step.watcher?, reports.getLast?⟩ ∧
      reached.1.isSolved = !reports.isEmpty ∧
      reached.1.rounds = (reports.getLast?.map Report.rounds).getD [] ∧
      reached.1.FailsCleanly clock fuel reached.2.1 reached.2.2 := by
  intro begun reports reached
  have left : reached.1 = ⟨task, limits, steps.filterMap Step.watcher?, reports.getLast?⟩ := by
    refine (Step.leave_fst clock fuel steps (ofTask task limits) (moment, state)).trans ?_
    -- There is no report and no watcher to begin with.
    simp [ofTask, reports, begun]
  refine ⟨left, ?_, ?_, reached.1.failsCleanly clock fuel reached.2.1 reached.2.2⟩
  · -- A run is known to have finished where there is a report.
    rw [left, isSolved]
    cases reports with
    | nil => rfl
    | cons first rest => simp
  · rw [left, rounds]

/-- A watcher that fails spoils the second run, and the report of the first one is still there. -/
example :
    let steps : List (Step Nat LpStatus Bool ℚ) :=
      [.solve, .watch fun _ _ => Action.raise .outOfRange, .solve]
    let task : Task Nat (LpAnswer ℚ) LpStatus Bool :=
      .countdown ⟨.optimal, some 1, [], [], 0, 0, 0⟩ .optimal
    let begun := (ofTask task Limits.none, 0, 2)
    (Step.reports ticking 4 steps begun).map Report.iterations = [3] ∧
      (Step.leave ticking 4 steps begun).1.rounds.length = 3 := by
  exact ⟨rfl, rfl⟩

end Supervisor

end CuttingPlanes
