import CuttingPlanes.Proofs.Relaxation.Program
import Mathlib.Tactic.Linarith
import Mathlib.Tactic.Ring

/-! The points that a record admits, what they cost, and what an answer may say about them. -/

namespace CuttingPlanes

/-- A cost that is no worse than another one. -/
def Objective.Prefers (objective : Objective) (cost other : ℚ) : Prop :=
  match objective with
  | .least => cost ≤ other
  | .greatest => other ≤ cost

/-- The costs with the sign under which less is better. -/
theorem Linear.dot_minimised (program : Linear.Program) (point : List ℚ) :
    Linear.dot program.minimised point =
      if program.maximise then -program.objective point else program.objective point := by
  unfold Program.minimised Program.objective Program.costs
  split
  case isFalse => rfl
  case isTrue =>
    -- The sign is taken out column by column.
    induction program.columns generalizing point with
    | nil => simp [dot, total]
    | cons column rest ih =>
      cases point with
      | nil => simp [dot, total]
      | cons value point =>
        have others := ih point
        simp only [dot, List.map_cons, List.zipWith_cons_cons, total] at others ⊢
        rw [others]
        ring

/-- Less of a signed cost is what an objective prefers. -/
theorem Linear.dot_minimised_le_iff {program : Linear.Program} {objective : Objective}
    (sense : program.maximise = (objective == .greatest)) {point : List ℚ} {cost : ℚ} :
    Linear.dot program.minimised point ≤ (if program.maximise then -cost else cost) ↔
      objective.Prefers (program.objective point) cost := by
  rw [Linear.dot_minimised, sense]
  cases objective with
  | least => exact Iff.rfl
  | greatest => exact neg_le_neg_iff

namespace Relaxation

variable {N : Type} {record : Relaxation ℚ Nat N} {point : List ℚ}

/-- The linear program that a record stands for. -/
def program (record : Relaxation ℚ Nat N) : Linear.Program :=
  ⟨record.objective == .greatest, record.columns.map Column.linear, record.rows.map Row.linear⟩

/-- The cost of a point. -/
def cost (record : Relaxation ℚ Nat N) (point : List ℚ) : ℚ :=
  Linear.dot (record.columns.map Column.cost) point

/-- A point that has a value within the bounds of each column and violates no row. -/
structure Admits (record : Relaxation ℚ Nat N) (point : List ℚ) : Prop where
  columns : List.Forall₂
    (fun column value => column.lower ≤ value ∧ ∀ upper ∈ column.upper, value ≤ upper)
    record.columns point
  rows : ∀ row ∈ record.rows, ∃ excess, row.violation point = .ok excess ∧ excess ≤ 0

/-- The points that a record admits are those of its program. -/
theorem admits_iff : record.Admits point ↔ record.program.isFeasible point = true := by
  rw [Linear.Program.isFeasible_iff]
  -- A value is within the bounds of its column at each position.
  have columns : List.Forall₂
      (fun (column : Column ℚ N) value =>
        column.lower ≤ value ∧ ∀ upper ∈ column.upper, value ≤ upper) record.columns point ↔
      point.length = record.program.columns.length ∧
        ∀ position (column : position < record.program.columns.length)
          (value : position < point.length),
          (record.program.columns[position]).bounds.holds point[position] = true := by
    rw [List.forall₂_iff_get, eq_comm]
    simp [program, Column.linear, Linear.Bounds.holds_iff]
  -- A row is violated by as much as its left side is beyond its bounds.
  have rows : (∀ row ∈ record.rows, ∃ excess, row.violation point = .ok excess ∧ excess ≤ 0) ↔
      ∀ row ∈ record.program.rows, row.bounds.holds (row.activity point) = true := by
    rw [program, List.forall_mem_map]
    refine forall₂_congr fun row _ => ?_
    simp [Row.violation_rat, Row.distance_nonpos_iff]
  rw [← and_assoc, ← columns, ← rows]
  exact ⟨fun admits => ⟨admits.columns, admits.rows⟩, fun both => ⟨both.1, both.2⟩⟩

/-- The cost of a point is that in the program. -/
theorem objective_program : record.program.objective point = record.cost point := by
  simp [program, Linear.Program.objective, Linear.Program.costs, cost, Column.linear,
    Function.comp_def]

end Relaxation

namespace LpAnswer

variable {N : Type} {record : Relaxation ℚ Nat N} {answer : LpAnswer ℚ}

/-- An answer that says something of a record, and what it says is true. -/
def IsTrueOf (answer : LpAnswer ℚ) (record : Relaxation ℚ Nat N) : Prop :=
  match answer.status with
  | .optimal =>
      record.Admits answer.values ∧ answer.objective = some (record.cost answer.values) ∧
        ∀ other, record.Admits other →
          record.objective.Prefers (record.cost answer.values) (record.cost other)
  | .infeasible => ∀ point, ¬record.Admits point
  | .unbounded => ∀ bound, ∃ point, record.Admits point ∧
      record.objective.Prefers (record.cost point) bound
  | _ => False

/-- What is true of the program is true of the record that it stands for. -/
theorem TellsTruth.isTrueOf (told : answer.TellsTruth record.program) :
    answer.IsTrueOf record := by
  have preferred (point : List ℚ) (cost : ℚ) :
      Linear.dot record.program.minimised point ≤
          (if record.program.maximise then -cost else cost) ↔
        record.objective.Prefers (record.cost point) cost := by
    rw [Linear.dot_minimised_le_iff rfl, Relaxation.objective_program]
  unfold TellsTruth at told
  unfold IsTrueOf
  cases status : answer.status with
  | optimal =>
    rw [status] at told
    obtain ⟨best, costs⟩ := told
    refine ⟨Relaxation.admits_iff.2 best.feasible, ?_, fun other admits => ?_⟩
    · rw [costs, Relaxation.objective_program]
    · have least := best.least other (Relaxation.admits_iff.1 admits)
      rwa [Linear.dot_minimised _ other, Relaxation.objective_program, preferred] at least
  | infeasible =>
    rw [status] at told
    intro point admits
    rw [Relaxation.admits_iff, told point] at admits
    cases admits
  | unbounded =>
    rw [status] at told
    intro bound
    -- The signed cost falls below the bound with its sign.
    obtain ⟨point, feasible, below⟩ := told (if record.program.maximise then -bound else bound)
    exact ⟨point, Relaxation.admits_iff.2 feasible, (preferred point bound).1 below.le⟩
  | _ => simp [status] at told

end LpAnswer

end CuttingPlanes
