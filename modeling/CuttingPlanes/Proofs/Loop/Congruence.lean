import CuttingPlanes.Loop.Supervisor
import Mathlib.Data.List.Forall2

/-! Supervised runs whose callables are related are related themselves. -/

namespace CuttingPlanes

variable {σ τ κ R S A K : Type}

namespace Action

/-- A relation that respects how computations are put together. -/
structure Congruence (related : ∀ {α : Type}, Action τ α → Action σ α → Prop) : Prop where
  pure : ∀ {α : Type} (value : α), related (pure value) (pure value)
  bind : ∀ {α β : Type} {left : Action τ α} {right : Action σ α} {later : α → Action τ β}
    {next : α → Action σ β}, related left right → (∀ value, related (later value) (next value)) →
      related (left >>= later) (right >>= next)
  raise : ∀ {α : Type} (fault : Fault), related (raise fault : Action τ α) (raise fault)
  unfinished : ∀ {α : Type}, related (unfinished : Action τ α) unfinished
  report : ∀ entry, related (report entry) (report entry)

variable {related : ∀ {α : Type}, Action τ α → Action σ α → Prop}

/-- A value that may have been refused is related to itself. -/
theorem Congruence.ofExcept {α : Type} (congruence : Congruence related)
    (made : Except Fault α) : related (ofExcept made) (ofExcept made) := by
  cases made with
  | ok value => exact congruence.pure value
  | error fault => exact congruence.raise fault

end Action

namespace Supervisor

/-- Supervisors whose callables are related, as far as a run calls them. -/
structure Related (related : ∀ {α : Type}, Action (κ × τ) α → Action (κ × σ) α → Prop)
    (clock : Clock κ K) (left : Supervisor τ R S A K) (right : Supervisor σ R S A K) : Prop where
  congruence : Action.Congruence related
  reads : related (readClock clock) (readClock clock)
  solve : related left.task.solve.onSecond right.task.solve.onSecond
  separate : related left.task.separate.onSecond right.task.separate.onSecond
  optimal : left.task.optimal = right.task.optimal
  limits : left.limits = right.limits
  watchers : List.Forall₂ (fun watcher other => ∀ round,
    related (watcher left.isSolved round).onSecond (other right.isSolved round).onSecond)
    left.watchers right.watchers

namespace Related

variable {related : ∀ {α : Type}, Action (κ × τ) α → Action (κ × σ) α → Prop}
  {clock : Clock κ K} {left : Supervisor τ R S A K} {right : Supervisor σ R S A K}
  (alike : Related related clock left right)

include alike

theorem note_eq : left.note = right.note := by
  funext message
  -- How loud a note is depends on the limits.
  rw [note, note, alike.limits]

theorem isOptimal_eq [Status S] : left.task.isOptimal = right.task.isOptimal := by
  funext status
  rw [Task.isOptimal, Task.isOptimal, alike.optimal]

/-- Whether a message is refused depends on the limits alone. -/
theorem reportWritten (message : Except Fault String) :
    related (left.reportWritten message) (right.reportWritten message) := by
  cases message with
  | ok line =>
    rw [Supervisor.reportWritten, Supervisor.reportWritten, alike.note_eq]
    exact alike.congruence.report _
  | error fault =>
    rw [Supervisor.reportWritten, Supervisor.reportWritten, alike.limits]
    -- A message that cannot be written is refused only where somebody reads it.
    by_cases heard : right.limits.isHeard = true
    · simpa [heard] using alike.congruence.raise fault
    · simpa [heard] using alike.congruence.pure ()

theorem sinceReading [Scalar K] (earlier : K) :
    related (Supervisor.sinceReading clock earlier) (Supervisor.sinceReading clock earlier) :=
  alike.congruence.bind alike.reads fun _ => alike.congruence.ofExcept _

/-- Related watchers refuse at the same place. -/
theorem askWatchers [Answer A] (round : Round K S) :
    related (Supervisor.askWatchers left.isSolved round left.watchers)
      (Supervisor.askWatchers right.isSolved round right.watchers) := by
  -- The induction is on the watchers, and the supervisors stay as they are.
  have rows := alike.watchers
  generalize left.watchers = watchers, right.watchers = others at rows
  induction rows with
  | nil => exact alike.congruence.pure true
  | cons same rest ih =>
    refine alike.congruence.bind (same round) fun answer => ?_
    -- A refusal ends both rows of watchers.
    by_cases yes : Answer.yes answer = true
    · simpa [yes] using ih
    · simpa [yes] using alike.congruence.pure false

/-- What follows a new row is related. -/
theorem afterRow [Answer A] [Scalar K] (start : K) (round : Round K S) (progress : Progress K S) :
    related (left.afterRow clock start round progress)
      (right.afterRow clock start round progress) := by
  have congruence := alike.congruence
  rw [Supervisor.afterRow, Supervisor.afterRow, alike.limits, alike.note_eq]
  -- The watchers, the count of iterations and the clock are asked in this order by both.
  refine congruence.bind (alike.askWatchers round) fun goes => ?_
  cases goes with
  | false => exact congruence.pure _
  | true =>
    refine congruence.bind (congruence.ofExcept _) fun spent => ?_
    cases spent with
    | true => exact congruence.bind (congruence.report _) fun _ => congruence.pure _
    | false =>
      refine congruence.bind (alike.sinceReading start) fun elapsed => ?_
      refine congruence.bind (congruence.ofExcept _) fun late => ?_
      cases late with
      | true => exact congruence.bind (alike.reportWritten _) fun _ => congruence.pure _
      | false => exact congruence.pure _

/-- What follows a solve that ended as awaited is related. -/
theorem afterOptimal [Answer A] [Scalar K] (start : K) (iteration : Nat) (status : S)
    (objective : Option K) (solveTime : K) (progress : Progress K S) :
    related (left.afterOptimal clock start iteration status objective solveTime progress)
      (right.afterOptimal clock start iteration status objective solveTime progress) := by
  have congruence := alike.congruence
  rw [Supervisor.afterOptimal, Supervisor.afterOptimal, alike.note_eq]
  refine congruence.bind alike.reads fun asked => ?_
  refine congruence.bind alike.separate fun answer => ?_
  refine congruence.bind (alike.sinceReading asked) fun elapsed => ?_
  refine congruence.bind (congruence.ofExcept _) fun spent => ?_
  -- The answer of the search says which report comes next.
  by_cases added : Answer.yes answer = true
  · rw [if_pos added, if_pos added]
    exact congruence.bind (congruence.report _) fun _ => alike.afterRow start _ _
  · rw [if_neg added, if_neg added]
    exact congruence.bind (congruence.report _) fun _ =>
      congruence.bind (alike.askWatchers _) fun _ => congruence.pure _

/-- The report of a run that has stopped is related. -/
theorem conclude [Scalar K] [Status S] (start : K) (ending : Ending) (last : Round K S)
    (progress : Progress K S) :
    related (left.conclude clock start ending last progress)
      (right.conclude clock start ending last progress) := by
  have congruence := alike.congruence
  rw [Supervisor.conclude, Supervisor.conclude, alike.limits]
  refine congruence.bind (alike.sinceReading start) fun total => ?_
  -- The closing line is written on request only.
  by_cases verbose : right.limits.verbose = true
  · rw [if_pos verbose, if_pos verbose]
    exact congruence.bind (alike.reportWritten _) fun _ => congruence.pure _
  · rw [if_neg verbose, if_neg verbose]
    exact congruence.pure _

variable [HasStatus R S] [HasObjective R K] [Status S] [Answer A] [Scalar K]

/-- One iteration is related. -/
theorem turn (start : K) (progress : Progress K S) :
    related (left.turn clock start progress) (right.turn clock start progress) := by
  have congruence := alike.congruence
  rw [Supervisor.turn, Supervisor.turn, alike.note_eq, alike.isOptimal_eq]
  refine congruence.bind alike.reads fun asked => ?_
  refine congruence.bind alike.solve fun result => ?_
  refine congruence.bind (alike.sinceReading asked) fun elapsed => ?_
  refine congruence.bind (congruence.ofExcept _) fun spent => ?_
  -- Whether a search follows depends on the status, which is the same on both sides.
  by_cases optimal : right.task.isOptimal (HasStatus.status result) = true
  · rw [if_pos optimal, if_pos optimal]
    exact alike.afterOptimal start _ _ _ _ _
  · rw [if_neg optimal, if_neg optimal]
    exact congruence.bind (congruence.report _) fun _ =>
      congruence.bind (alike.askWatchers _) fun _ => congruence.pure _

/-- All iterations of a run are related. -/
theorem proceed (start : K) (fuel : Nat) (progress : Progress K S) :
    related (left.proceed clock start fuel progress)
      (right.proceed clock start fuel progress) := by
  induction fuel generalizing progress with
  -- Without turns neither of them comes to an end.
  | zero => exact alike.congruence.unfinished
  | succ fuel ih =>
    refine alike.congruence.bind (alike.turn start progress) fun turn => ?_
    -- The turn is the same on both sides, and so is what it decides.
    cases turn with
    | goOn progress => exact ih progress
    | stop ending last progress => exact alike.conclude start ending last progress

/-- A run is related to the run of the other supervisor. -/
theorem run (fuel : Nat) : related (left.solve clock fuel) (right.solve clock fuel) :=
  alike.congruence.bind alike.reads fun start => alike.proceed start fuel .begun

end Related

end Supervisor

end CuttingPlanes
