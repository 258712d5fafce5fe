import CuttingPlanes.Proofs.Linear.Program
import CuttingPlanes.Proofs.Relaxation.Calls
import Mathlib.Analysis.Convex.Extreme

/-! The linear program that calls have built, and what an answer may say about it. -/

namespace CuttingPlanes

variable {N : Type}

/-- The variable that a column stands for. -/
def Column.linear (column : Column ℚ N) : Linear.Column :=
  ⟨column.cost, ⟨some column.lower, column.upper⟩⟩

/-- The program of least cost with the columns and rows that calls have added. -/
def Call.program (calls : List (Call ℚ Nat N)) : Linear.Program where
  maximise := false
  columns := (columns calls).map Column.linear
  rows := (rows calls).map Row.linear

namespace LpAnswer

variable (program : Linear.Program) (answer : LpAnswer ℚ)

/-- An answer that ends well gives a feasible point. -/
def TellsFeasible : Prop := answer.status = .optimal → program.isFeasible answer.values = true

/-- An answer that ends well gives a best point with its cost. -/
def TellsBest : Prop :=
  answer.status = .optimal →
    program.IsBest answer.values ∧ answer.objective = some (program.objective answer.values)

/-- An answer that ends well gives a best point with its cost, and no other answer gives a cost. -/
structure TellsOnlyBest : Prop where
  best : answer.TellsBest program
  solved : ∀ cost ∈ answer.objective, answer.status = .optimal

/-- An answer that ends well gives a best point that is an extreme point of the feasible ones. -/
def TellsVertex : Prop :=
  answer.TellsBest program ∧ (answer.status = .optimal →
    ∃ vertex : Fin program.columns.length → ℚ, answer.values = List.ofFn vertex ∧
      vertex ∈ Set.extremePoints ℚ {point | program.isFeasible (List.ofFn point) = true})

/-- An answer says of a program what is true of it, and says something. -/
def TellsTruth : Prop :=
  match answer.status with
  | .optimal =>
      program.IsBest answer.values ∧ answer.objective = some (program.objective answer.values)
  | .infeasible => ∀ point, program.isFeasible point = false
  | .unbounded => ∀ bound, ∃ point, program.isFeasible point = true ∧
      Linear.dot program.minimised point < bound
  | _ => False

/-- As before, but a program without columns is called solved whatever its rows say. -/
def TellsTruthOfColumns : Prop :=
  if program.columns = [] then answer.status = Verdict.modelEmpty.status
  else answer.TellsTruth program

variable {program answer}

/-- A true answer that ends well gives a best point. -/
theorem TellsTruth.tellsBest (told : answer.TellsTruth program) : answer.TellsBest program := by
  -- A true answer that ends well is about a best point.
  intro optimal
  rwa [TellsTruth, optimal] at told

end LpAnswer

end CuttingPlanes
