import CuttingPlanes.Relaxation.Status
import CuttingPlanes.Scalar

/-! What one solve of a linear program gives back. -/

namespace CuttingPlanes

/-- The result of one solve. -/
structure LpAnswer (K : Type) where
  status : LpStatus
  objective : Option K
  /-- The value of every column, by position. -/
  values : List K
  /-- The dual value of every row, by position. -/
  duals : List K
  solveTime : K
  iterations : Int
  /-- The number of rows at the time of the solve. -/
  rowCount : Int

namespace LpAnswer

variable {K ι : Type} [Scalar K] [Ordinal ι]

/-- The answer of a program that has not been solved. -/
def unsolved : LpAnswer K := ⟨.notSolved, none, [], [], Scalar.ofRat 0, 0, 0⟩

/-- Whether primal values are there to be used. -/
def hasSolution (answer : LpAnswer K) : Bool :=
  answer.status.mayHaveValues && answer.objective.isSome

/-- The value of a column, or a default where there is no such column. -/
def value (answer : LpAnswer K) (column : ι) (default : K) : Except Fault K := do
  if ← Ordinal.order .atMost (Ordinal.ofNat 0) column then
    if ← Ordinal.order .less column (Ordinal.ofNat answer.values.length) then
      itemAt answer.values column
    else return default
  else return default

/-- The tolerance below which a value counts as zero. -/
def defaultTolerance : K := Scalar.ofRat (1 / 1000000000)

/-- The columns from a position on whose values exceed a tolerance in size. -/
def nonzeroFrom (tolerance : K) : (position : Nat) → List K → Except Fault (List (Nat × K))
  | _, [] => .ok []
  | position, value :: rest => do
      let counts ← Scalar.order .greater (← Scalar.magnitude value) tolerance
      let others ← nonzeroFrom tolerance (position + 1) rest
      return if counts then (position, value) :: others else others

/-- The columns whose values exceed a tolerance in size. -/
def nonzero (answer : LpAnswer K) (tolerance : K) : Except Fault (List (Nat × K)) :=
  nonzeroFrom tolerance 0 answer.values

/-- The lines that describe an answer. -/
def summary (answer : LpAnswer K) : Except Fault String := do
  let objective ← match answer.objective with
    | some objective => do pure ["  Objective: " ++ (← Scalar.fixed 6 objective)]
    | none => pure []
  let count := (← answer.nonzero defaultTolerance).length
  let time ← Scalar.fixed 3 answer.solveTime
  return String.intercalate "\n" <|
    ["LPSolution:", "  Status: " ++ answer.status.name] ++ objective ++
    [ "  Rows: " ++ Layout.integer answer.rowCount,
      "  Nonzero columns: " ++ Layout.integer count ++ " / " ++
        Layout.integer answer.values.length,
      "  Solve time: " ++ time ++ "s",
      "  Iterations: " ++ Layout.integer answer.iterations ]

/-- The line that shows an answer. -/
def shown (answer : LpAnswer K) : Except Fault String := do
  let objective ← match answer.objective with
    | some objective => do pure (", obj=" ++ (← Scalar.fixed 4 objective))
    | none => pure ""
  return "LPSolution(" ++ answer.status.name ++ objective ++ ")"

end LpAnswer

end CuttingPlanes
