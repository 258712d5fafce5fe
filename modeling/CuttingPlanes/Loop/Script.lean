import CuttingPlanes.Loop.Supervisor
import CuttingPlanes.Separator.Pool

/-! Loops whose solves and searches are given beforehand. -/

namespace CuttingPlanes

/-- The results of solves, the last of which comes again and again, and the answers of searches. -/
structure Script where
  solves : List (Except Fault AnyResult)
  /-- The number of solves made. -/
  made : Nat
  /-- The answers that are left; when they are used up nothing is found. -/
  answers : List (Except Fault Datum)

/-- A script beside a separator's state over a pool. -/
abbrev ScriptState (ρ : Type) := Script × (Tally × (Rotation ρ × Pool))

namespace Script

variable {ρ : Type}

/-- Notes a call of the loop. -/
def note (event : Event) : Action (ScriptState ρ) Unit :=
  (Pool.note event).onSecond.onSecond.onSecond

/-- The next solve. -/
def solve : Action (ScriptState ρ) AnyResult := do
  note .solve
  let script := (← Action.get).1
  Action.modify fun state => ({ script with made := script.made + 1 }, state.2)
  match (script.solves[script.made]?).or script.solves.getLast? with
  | some result => Action.ofExcept result
  | none => Action.raise .outOfRange

/-- The next search. -/
def separate : Action (ScriptState ρ) Datum := do
  note .separate
  let script := (← Action.get).1
  Action.modify fun state => ({ script with answers := script.answers.drop 1 }, state.2)
  match script.answers with
  | [] => return .bool false
  | answer :: _ => Action.ofExcept answer

/-- A search through the pool. -/
def separatePool (separator : Separator (Rotation ρ × Pool) Datum Datum) (fuel : Nat) :
    Action (ScriptState ρ) Datum := do
  return .bool (← (separator.call fuel).onSecond)

/-- How a watcher answers. -/
inductive Rule where
  | failing (fault : Fault)
  /-- Yes below a number of iterations. -/
  | before (iteration : Datum)
  /-- Yes while the objective is below a value. -/
  | below (objective : Datum)
  /-- Given answers by iteration, the last of which comes again and again. -/
  | listed (answers : List Datum)
  | constant (answer : Datum)

/-- The answer of a rule to an iteration. -/
def Rule.answer (round : Round Datum AnyStatus) : Rule → Except Fault Datum
  | failing fault => .error fault
  | before iteration => Datum.bool <$> Datum.less (.int round.iteration) iteration
  | below objective => Datum.bool <$> Datum.less (round.objective.getD .nothing) objective
  | listed answers =>
      match answers[min round.iteration answers.length - 1]? with
      | some answer => .ok answer
      | none => .error .outOfRange
  | constant answer => .ok answer

/-- The watcher of a rule, known by its position among the watchers. -/
def watcher (position : Nat) (rule : Rule) : Watcher (ScriptState ρ) Datum AnyStatus Datum :=
  fun isSolved round => do
    note (.watch position round.iteration isSolved)
    Action.ofExcept (rule.answer round)

end Script

end CuttingPlanes
