/-! How the solve of a linear program ends. -/

namespace CuttingPlanes

/-- The ending of one solve. -/
inductive LpStatus where
  | optimal
  | infeasible
  | unbounded
  | infeasibleOrUnbounded
  | timeLimit
  | iterationLimit
  | notSolved
  | error
  deriving DecidableEq, Repr

namespace LpStatus

/-- The name of a status. -/
def name : LpStatus → String
  | optimal => "OPTIMAL"
  | infeasible => "INFEASIBLE"
  | unbounded => "UNBOUNDED"
  | infeasibleOrUnbounded => "INF_OR_UNBOUNDED"
  | timeLimit => "TIME_LIMIT"
  | iterationLimit => "ITERATION_LIMIT"
  | notSolved => "NOT_SOLVED"
  | error => "ERROR"

/-- Every status. -/
def all : List LpStatus :=
  [optimal, infeasible, unbounded, infeasibleOrUnbounded, timeLimit, iterationLimit, notSolved,
    error]

/-- The status of a name. -/
def ofName? (name : String) : Option LpStatus := all.find? fun status => status.name == name

/-- Whether primal values may come with a status. -/
def mayHaveValues : LpStatus → Bool
  | optimal => true
  | timeLimit => true
  | iterationLimit => true
  | _ => false

end LpStatus

/-- What a solver says about the model that it holds. -/
inductive Verdict where
  | notSet
  /-- The model has no column, whatever its rows say. -/
  | modelEmpty
  | optimal
  | infeasible
  | unbounded
  | unboundedOrInfeasible
  | timeLimit
  | iterationLimit
  | other
  deriving DecidableEq, Repr

namespace Verdict

/-- The verdict of a solver's own name for it. -/
def ofName : String → Verdict
  | "kNotset" => notSet
  | "kModelEmpty" => modelEmpty
  | "kOptimal" => optimal
  | "kInfeasible" => infeasible
  | "kUnbounded" => unbounded
  | "kUnboundedOrInfeasible" => unboundedOrInfeasible
  | "kTimeLimit" => timeLimit
  | "kIterationLimit" => iterationLimit
  | _ => other

/-- The status that a verdict is reported as; an empty model counts as solved. -/
def status : Verdict → LpStatus
  | notSet => .notSolved
  | modelEmpty => .optimal
  | optimal => .optimal
  | infeasible => .infeasible
  | unbounded => .unbounded
  | unboundedOrInfeasible => .infeasibleOrUnbounded
  | timeLimit => .timeLimit
  | iterationLimit => .iterationLimit
  | other => .error

/-- The status of a verdict where the solver may be missing. -/
def statusWhen (available : Bool) (verdict : Verdict) : LpStatus :=
  if available then verdict.status else .error

end Verdict

end CuttingPlanes
