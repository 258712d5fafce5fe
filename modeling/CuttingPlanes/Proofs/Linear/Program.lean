import CuttingPlanes.Proofs.Exact
import Mathlib.Algebra.BigOperators.Fin

/-! Feasible and best points of linear programs, position by position. -/

namespace CuttingPlanes.Linear

/-- Pairs of members at the same positions all hold. -/
theorem all_zipWith_iff {α β : Type} (holds : α → β → Bool) {first : List α} {second : List β}
    (same : first.length = second.length) :
    (List.zipWith holds first second).all id = true ↔
      ∀ position (left : position < first.length) (right : position < second.length),
        holds first[position] second[position] = true := by
  rw [List.all_eq_true]
  constructor
  · intro all position left right
    -- A pair stands where both lists have a member.
    have inside : position < (List.zipWith holds first second).length := by
      simpa using ⟨left, right⟩
    simpa using all _ (List.getElem_mem inside)
  · intro each verdict member
    -- Every verdict belongs to a position of both lists.
    obtain ⟨position, inside, rfl⟩ := List.getElem_of_mem member
    rw [List.length_zipWith] at inside
    simpa using each position (by omega) (by omega)

/-- Products of numbers at the same positions, summed over the positions. -/
theorem dot_eq_sum (costs point : List ℚ) {count : ℕ} (costed : costs.length = count)
    (given : point.length = count) :
    dot costs point = ∑ position : Fin count, costs.getD position 0 * point.getD position 0 := by
  induction costs generalizing point count with
  | nil =>
    subst costed
    simp [dot, total]
  | cons cost costs ih =>
    obtain ⟨value, point, rfl⟩ := List.exists_cons_of_length_pos (l := point) (by
      rw [given, ← costed]
      simp)
    subst costed
    -- The first product is split off, and the positions behind it count from zero again.
    have rest := ih point rfl (show point.length = costs.length by simpa using given)
    rw [dot, List.zipWith_cons_cons, total, ← dot, rest, List.length_cons, Fin.sum_univ_succ]
    rfl

namespace Program

variable {program : Program} {point : List ℚ}

/-- A feasible point keeps the bounds of every column and of every row. -/
theorem isFeasible_iff :
    program.isFeasible point = true ↔ point.length = program.columns.length ∧
      (∀ position (column : position < program.columns.length) (value : position < point.length),
        (program.columns[position]).bounds.holds point[position] = true) ∧
      ∀ row ∈ program.rows, row.bounds.holds (row.activity point) = true := by
  rw [isFeasible, Bool.and_eq_true, Bool.and_eq_true, beq_iff_eq, and_assoc]
  -- Both lists have the same length, so that no pair is lost.
  refine and_congr_right fun same => and_congr ?_ List.all_eq_true
  exact all_zipWith_iff (fun column x => column.bounds.holds x) same.symm

/-- A feasible point such that no other one is better. -/
structure IsBest (program : Program) (point : List ℚ) : Prop where
  feasible : program.isFeasible point = true
  least : ∀ other, program.isFeasible other = true →
    dot program.minimised point ≤ dot program.minimised other

end Program

end CuttingPlanes.Linear
