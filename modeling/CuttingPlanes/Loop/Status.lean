import CuttingPlanes.Datum.Text
import CuttingPlanes.Datum.Order
import CuttingPlanes.Relaxation.Answer

/-! Statuses that a loop compares with the one it waits for, and results that carry them. -/

namespace CuttingPlanes

/-- A vocabulary of statuses. -/
class Status (S : Type) where
  /-- Whether two statuses are equal. -/
  same : S → S → Bool
  /-- The name of a status, where it has one that is text. -/
  name? : S → Option String
  /-- How a status is written: by its name where it has one. -/
  label : S → String

instance : Status LpStatus where
  same left right := left == right
  name? status := some status.name
  label := LpStatus.name

/-- A result that tells how the solve ended. -/
class HasStatus (R : Type) (S : outParam Type) where
  status : R → S

/-- A result that may carry an objective value. -/
class HasObjective (R : Type) (K : outParam Type) where
  objective : R → Option K

instance : HasStatus LpStatus LpStatus := ⟨id⟩

instance {K : Type} : HasStatus (LpAnswer K) LpStatus := ⟨LpAnswer.status⟩

instance {K : Type} : HasObjective (LpAnswer K) K := ⟨LpAnswer.objective⟩

/-- How a run of the supervised loop ends. -/
inductive Ending where
  | optimal
  | infeasible
  | unbounded
  | lpError
  | iterationLimit
  | timeLimit
  | stopped
  | notSolved
  deriving DecidableEq, Repr

namespace Ending

/-- The name of an ending. -/
def name : Ending → String
  | optimal => "OPTIMAL"
  | infeasible => "INFEASIBLE"
  | unbounded => "UNBOUNDED"
  | lpError => "LP_ERROR"
  | iterationLimit => "ITERATION_LIMIT"
  | timeLimit => "TIME_LIMIT"
  | stopped => "STOPPED"
  | notSolved => "NOT_SOLVED"

/-- Every ending. -/
def all : List Ending :=
  [optimal, infeasible, unbounded, lpError, iterationLimit, timeLimit, stopped, notSolved]

/-- The ending of a name. -/
def ofName? (name : String) : Option Ending := all.find? fun ending => ending.name == name

/-- Whether a run was cut short. -/
def isLimit : Ending → Bool
  | iterationLimit => true
  | timeLimit => true
  | stopped => true
  | _ => false

/-- The ending that a status other than the awaited one leads to, which its name decides. -/
def ofStatus {S : Type} [Status S] (status : S) : Ending :=
  match Status.name? status with
  | some "INFEASIBLE" => infeasible
  | some "UNBOUNDED" => unbounded
  | _ => lpError

end Ending

/-- A status of any vocabulary. -/
inductive AnyStatus where
  | lp (status : LpStatus)
  | run (ending : Ending)
  /-- A status that has nothing but a name. -/
  | named (name : Datum)
  /-- A value that serves as a status. -/
  | plain (value : Datum)

namespace AnyStatus

/-- Whether two statuses are equal; those of different vocabularies never are. -/
def same : AnyStatus → AnyStatus → Bool
  | lp left, lp right => left == right
  | run left, run right => left == right
  | named left, named right => left == right
  | plain left, plain right => left == right
  | _, _ => false

/-- The name of a status, as a value. -/
def name : AnyStatus → Option Datum
  | lp status => some (.text status.name)
  | run ending => some (.text ending.name)
  | named name => some name
  | plain _ => none

/-- How a status is written. -/
def label : AnyStatus → String
  | plain value => value.plain
  | status => ((status.name).map Datum.plain).getD ""

instance : Status AnyStatus where
  same := same
  name? status :=
    match status.name with
    | some (.text name) => some name
    | _ => none
  label := label

end AnyStatus

/-- What a solve may give back: a bare status, an answer, or anything with a status. -/
inductive AnyResult where
  | status (status : AnyStatus)
  | answer (answer : LpAnswer Datum)
  | object (status : AnyStatus) (objective : Option Datum)

instance : HasStatus AnyResult AnyStatus where
  status
    | .status status => status
    | .answer answer => .lp answer.status
    | .object status _ => status

instance : HasObjective AnyResult Datum where
  objective
    | .status _ => none
    | .answer answer => answer.objective
    | .object _ objective => objective

end CuttingPlanes
