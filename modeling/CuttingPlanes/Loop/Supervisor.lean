import CuttingPlanes.Loop.Bare
import CuttingPlanes.Loop.Report

/-! The supervised loop: limits, watchers and a record of every iteration around the bare one. -/

namespace CuttingPlanes

/-- Limits of a run, none of which holds unless it is positive. -/
structure Limits (K : Type) where
  maxIterations : K
  maxTime : K
  /-- Whether progress is reported to everyone. -/
  verbose : Bool
  /-- Whether reports are read; only then are they written out, which may fail. -/
  isHeard : Bool

/-- Limits that never stop a run. -/
def Limits.none {K : Type} [Scalar K] : Limits K :=
  ⟨Scalar.ofInt 0, Scalar.ofRat 0, false, false⟩

/-- A reading of the time, which moves the clock. -/
abbrev Clock (κ K : Type) := κ → K × κ

/-- Is shown every iteration and whether a run has finished before; a refusal stops the run. -/
abbrev Watcher (σ K S A : Type) := (isSolved : Bool) → Round K S → Action σ A

/-- A task with its limits, its watchers and the report of the last run that finished. -/
structure Supervisor (σ R S A K : Type) where
  task : Task σ R S A
  limits : Limits K
  watchers : List (Watcher σ K S A)
  last : Option (Report K S)

/-- What a run has gathered so far. -/
structure Progress (K S : Type) where
  rounds : List (Round K S)
  rowsAdded : Nat
  solveTime : K
  separationTime : K

/-- How one iteration leaves a run. -/
inductive Turn (K S : Type) where
  | goOn (progress : Progress K S)
  | stop (ending : Ending) (last : Round K S) (progress : Progress K S)

namespace Progress

variable {K S : Type} [Scalar K]

/-- A run that has not begun. -/
def begun : Progress K S := ⟨[], 0, Scalar.ofRat 0, Scalar.ofRat 0⟩

/-- One more iteration in the record. -/
def recorded (progress : Progress K S) (round : Round K S) : Progress K S :=
  { progress with rounds := progress.rounds ++ [round] }

end Progress

namespace Supervisor

variable {σ κ R S A K : Type} [HasStatus R S] [HasObjective R K] [Status S] [Answer A] [Scalar K]

/-- The name under which supervised runs report. -/
def source : String := "openrg.solver.controller"

/-- A supervisor before its first run. -/
def ofTask (task : Task σ R S A) (limits : Limits K) : Supervisor σ R S A K :=
  ⟨task, limits, [], none⟩

/-- Whether a run has finished. -/
def isSolved (supervisor : Supervisor σ R S A K) : Bool := supervisor.last.isSome

/-- The record of the last run that finished. -/
def rounds (supervisor : Supervisor σ R S A K) : List (Round K S) :=
  (supervisor.last.map Report.rounds).getD []

/-- The supervisor with one more watcher. -/
def watchedBy (supervisor : Supervisor σ R S A K) (watcher : Watcher σ K S A) :
    Supervisor σ R S A K :=
  { supervisor with watchers := supervisor.watchers ++ [watcher] }

/-- The line that shows a supervisor. -/
def shown (supervisor : Supervisor σ R S A K) : String :=
  "RowGeneration(" ++ (if supervisor.isSolved then "solved" else "not solved") ++ ")"

/-- The current time. -/
def readClock (clock : Clock κ K) : Action (κ × σ) K := fun state =>
  let (now, later) := clock state.1
  ⟨.ok now, (later, state.2), []⟩

/-- The time since an earlier reading. -/
def sinceReading (clock : Clock κ K) (earlier : K) : Action (κ × σ) K := do
  Action.ofExcept (Scalar.sub (← readClock clock) earlier)

/-- A report of progress. -/
def note (supervisor : Supervisor σ R S A K) (message : String) : LogEntry :=
  ⟨if supervisor.limits.verbose then .info else .debug, source, message⟩

/-- Reports a message whose writing may have failed; a failure that nobody reads is none. -/
def reportWritten {τ : Type} (supervisor : Supervisor σ R S A K) (message : Except Fault String) :
    Action τ Unit :=
  match message with
  | .ok line => Action.report (supervisor.note line)
  | .error fault => if supervisor.limits.isHeard then Action.raise fault else pure ()

/-- Shows an iteration to the watchers in turn, up to the first that refuses. -/
def askWatchers (isSolved : Bool) (round : Round K S) :
    List (Watcher σ K S A) → Action (κ × σ) Bool
  | [] => return true
  | watcher :: rest => do
      if Answer.yes (← (watcher isSolved round).onSecond) then askWatchers isSolved round rest
      else return false

/-- An objective as it is written in reports. -/
def objectiveText (objective : Option K) : String :=
  match objective with
  | some objective => Scalar.text objective
  | none => "None"

/-- Whether the iteration limit is reached. -/
def iterationsSpent (limits : Limits K) (iteration : Nat) : Except Fault Bool := do
  if ← Scalar.order .greater limits.maxIterations (Scalar.ofInt 0) then
    Scalar.order .atLeast (Scalar.ofInt iteration) limits.maxIterations
  else return false

/-- Whether the time limit is reached. -/
def timeSpent (limits : Limits K) (elapsed : K) : Except Fault Bool := do
  if ← Scalar.order .greater limits.maxTime (Scalar.ofInt 0) then
    Scalar.order .atLeast elapsed limits.maxTime
  else return false

/-- What follows an iteration that added a row: the watchers, then the two limits. -/
def afterRow (supervisor : Supervisor σ R S A K) (clock : Clock κ K) (start : K)
    (round : Round K S) (progress : Progress K S) : Action (κ × σ) (Turn K S) := do
  if ← askWatchers supervisor.isSolved round supervisor.watchers then
    if ← Action.ofExcept (iterationsSpent supervisor.limits round.iteration) then
      Action.report (supervisor.note ("Stopping: iteration limit " ++
        Scalar.wholePart supervisor.limits.maxIterations ++ " reached"))
      return .stop .iterationLimit round progress
    else do
      let elapsed ← sinceReading clock start
      if ← Action.ofExcept (timeSpent supervisor.limits elapsed) then
        supervisor.reportWritten do
          let limit ← Scalar.fixed 1 supervisor.limits.maxTime
          return "Stopping: time limit " ++ limit ++ "s reached"
        return .stop .timeLimit round progress
      else return .goOn progress
  else return .stop .stopped round progress

/-- What follows a solve that ended as awaited: the search for a violated row. -/
def afterOptimal (supervisor : Supervisor σ R S A K) (clock : Clock κ K) (start : K)
    (iteration : Nat) (status : S) (objective : Option K) (solveTime : K)
    (progress : Progress K S) : Action (κ × σ) (Turn K S) := do
  let asked ← readClock clock
  let added := Answer.yes (← supervisor.task.separate.onSecond)
  let separationTime ← sinceReading clock asked
  let spent ← Action.ofExcept (Scalar.add progress.separationTime separationTime)
  let round : Round K S := ⟨iteration, status, objective, added, solveTime, separationTime⟩
  let progress := { progress with separationTime := spent }.recorded round
  if added then
    let progress := { progress with rowsAdded := progress.rowsAdded + 1 }
    Action.report (supervisor.note (s!"Iteration {iteration}: obj=" ++ objectiveText objective ++
      s!", rows added={progress.rowsAdded}"))
    supervisor.afterRow clock start round progress
  else do
    Action.report (supervisor.note s!"Iteration {iteration}: no violated row found. LP optimal.")
    let _ ← askWatchers supervisor.isSolved round supervisor.watchers
    return .stop .optimal round progress

/-- One iteration: a solve, and what its status asks for. -/
def turn (supervisor : Supervisor σ R S A K) (clock : Clock κ K) (start : K)
    (progress : Progress K S) : Action (κ × σ) (Turn K S) := do
  let iteration := progress.rounds.length + 1
  let asked ← readClock clock
  let result ← supervisor.task.solve.onSecond
  let solveTime ← sinceReading clock asked
  let spent ← Action.ofExcept (Scalar.add progress.solveTime solveTime)
  let progress := { progress with solveTime := spent }
  let status := HasStatus.status result
  let objective := HasObjective.objective result
  if supervisor.task.isOptimal status then
    supervisor.afterOptimal clock start iteration status objective solveTime progress
  else do
    let round : Round K S := ⟨iteration, status, objective, false, solveTime, Scalar.ofRat 0⟩
    Action.report (supervisor.note (s!"Iteration {iteration}: LP status " ++
      Status.label status ++ ", stopping"))
    let _ ← askWatchers supervisor.isSolved round supervisor.watchers
    return .stop (Ending.ofStatus status) round (progress.recorded round)

/-- The report of a run that has stopped. -/
def conclude (supervisor : Supervisor σ R S A K) (clock : Clock κ K) (start : K)
    (ending : Ending) (last : Round K S) (progress : Progress K S) :
    Action (κ × σ) (Report K S) := do
  let total ← sinceReading clock start
  let report : Report K S :=
    { ending := ending
      status := last.status
      objective := last.objective
      iterations := progress.rounds.length
      rowsAdded := progress.rowsAdded
      totalTime := total
      solveTime := progress.solveTime
      separationTime := progress.separationTime
      rounds := progress.rounds }
  if supervisor.limits.verbose then
    supervisor.reportWritten do return "Row generation finished: " ++ (← report.shown)
  return report

/-- The iterations of a run from some progress on, until one of them stops it. -/
def proceed (supervisor : Supervisor σ R S A K) (clock : Clock κ K) (start : K) :
    (fuel : Nat) → Progress K S → Action (κ × σ) (Report K S)
  | 0, _ => Action.unfinished
  | fuel + 1, progress => do
      match ← supervisor.turn clock start progress with
      | .goOn progress => supervisor.proceed clock start fuel progress
      | .stop ending last progress => supervisor.conclude clock start ending last progress

/-- One run. -/
def solve (supervisor : Supervisor σ R S A K) (clock : Clock κ K) (fuel : Nat) :
    Action (κ × σ) (Report K S) := do
  let start ← readClock clock
  supervisor.proceed clock start fuel Progress.begun

/-- One run whose report is kept; a run that fails leaves the last report as it was. -/
def solveAndKeep (clock : Clock κ K) (fuel : Nat) :
    Action (Supervisor σ R S A K × (κ × σ)) (Report K S) := do
  let supervisor := (← Action.get).1
  let report ← (supervisor.solve clock fuel).onSecond
  Action.modify fun state => ({ state.1 with last := some report }, state.2)
  return report

end Supervisor

end CuttingPlanes
