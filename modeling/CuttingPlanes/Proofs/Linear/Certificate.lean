import CuttingPlanes.Linear.Simplex
import CuttingPlanes.Proofs.Linear.Program
import Mathlib.Tactic.FieldSimp
import Mathlib.Tactic.Linarith
import Mathlib.Tactic.Ring

/-! What certificates prove is true: multipliers bound costs, and directions lower them forever. -/

namespace CuttingPlanes.Linear

/-- A product with a number between bounds is no less than the least one. -/
theorem Bounds.leastProduct_le {bounds : Bounds} {factor x least : ℚ}
    (holds : bounds.holds x = true) (found : bounds.leastProduct factor = some least) :
    least ≤ factor * x := by
  obtain ⟨low, high⟩ := (holds_iff bounds x).1 holds
  unfold leastProduct at found
  split at found
  -- A factor of zero asks for no end at all.
  case isTrue zero =>
    cases found
    rw [zero, zero_mul]
  case isFalse nonzero =>
    split at found
    case isTrue positive =>
      obtain ⟨lower, given, rfl⟩ := Option.map_eq_some_iff.1 found
      -- A positive factor is least at the lower end.
      exact mul_le_mul_of_nonneg_left (low lower given) positive.le
    case isFalse negative =>
      obtain ⟨upper, given, rfl⟩ := Option.map_eq_some_iff.1 found
      -- A negative factor is least at the upper end.
      exact mul_le_mul_of_nonpos_left (high upper given) (not_lt.1 negative)

/-- Least products add up to no more than the products. -/
theorem le_dot_of_sumAll {α : Type} {boundsOf : α → Bounds} {items : List α} {values : List ℚ}
    (holds : List.Forall₂ (fun item value => (boundsOf item).holds value = true) items values)
    {factors : List ℚ} {bound : ℚ}
    (found : sumAll (List.zipWith (fun item factor => (boundsOf item).leastProduct factor)
      items factors) = some bound) : bound ≤ dot factors values := by
  -- Items, values and factors are passed together; missing factors count for nothing.
  induction holds generalizing factors bound with
  | nil =>
    cases found
    simp [dot, total]
  | @cons item value items values first _ ih =>
    cases factors with
    | nil =>
      cases found
      simp [dot, total]
    | cons factor factors =>
      rw [List.zipWith_cons_cons, sumAll] at found
      cases head : (boundsOf item).leastProduct factor with
      | none => simp [head] at found
      | some least =>
      cases tail : sumAll (List.zipWith (fun item factor => (boundsOf item).leastProduct factor)
          items factors) with
      | none => simp [head, tail] at found
      | some rest =>
        have sum : least + rest = bound := by simpa [head, tail] using found
        rw [← sum]
        exact add_le_add (Bounds.leastProduct_le first head) (ih tail)

/-- How often a row takes the variable at a position. -/
def Row.coefficient (row : Row) (position : Nat) : ℚ :=
  total (row.terms.map fun term => if term.1 = position then term.2 else 0)

/-- The left side of a row adds up its variables, each with its coefficient. -/
theorem Row.activity_eq_sum (row : Row) (point : List ℚ) :
    row.activity point =
      ∑ position : Fin point.length, row.coefficient position * point.getD position 0 := by
  simp only [activity, coefficient, total_eq_sum]
  -- The terms are moved one by one.
  induction row.terms with
  | nil => simp
  | cons term rest ih =>
    simp only [List.map_cons, List.sum_cons, add_mul, Finset.sum_add_distrib, ih]
    congr 1
    by_cases inside : term.1 < point.length
    · -- The term meets exactly one variable.
      rw [Finset.sum_eq_single ⟨term.1, inside⟩]
      · simp
      · intro position _ other
        have different : term.1 ≠ position := fun same => other (Fin.ext same.symm)
        simp [different]
      · exact fun absent => (absent (Finset.mem_univ _)).elim
    · -- No variable of the point is meant.
      have different : ∀ position : Fin point.length, term.1 ≠ position := by omega
      simp [different, inside]

/-- What is taken away from the costs of the variables is paid for by the rows. -/
theorem sum_reducedCost (rows : List Row) (multipliers point : List ℚ)
    (cost : Fin point.length → ℚ) :
    ∑ position : Fin point.length,
        reducedCost rows multipliers position (cost position) * point.getD position 0 =
      ∑ position : Fin point.length, cost position * point.getD position 0 -
        dot multipliers (rows.map fun row => row.activity point) := by
  -- Every row gives back, over all variables, its multiplier times its left side.
  have taken : ∑ position : Fin point.length, total (List.zipWith
      (fun (row : Row) multiplier => multiplier * row.coefficient position) rows multipliers) *
        point.getD position 0 = dot multipliers (rows.map fun row => row.activity point) := by
    induction rows generalizing multipliers with
    | nil => simp [dot, total]
    | cons row rows ih =>
      cases multipliers with
      | nil => simp [dot, total]
      | cons multiplier multipliers =>
        simp only [List.zipWith_cons_cons, List.map_cons, dot, total, add_mul,
          Finset.sum_add_distrib, row.activity_eq_sum point, Finset.mul_sum, mul_assoc]
        exact congrArg _ (ih multipliers)
  rw [← taken, ← Finset.sum_sub_distrib]
  exact Finset.sum_congr rfl fun position _ => sub_mul _ _ _

namespace Program

variable {program : Program} {costs multipliers point : List ℚ}

/-- The variables of a feasible point keep the bounds of their columns. -/
theorem forall₂_holds_columns (feasible : program.isFeasible point = true) :
    List.Forall₂ (fun column value => (Column.bounds column).holds value = true)
      program.columns point := by
  -- A feasible point has one value for each column.
  obtain ⟨same, kept, -⟩ := isFeasible_iff.1 feasible
  exact List.forall₂_iff_get.2 ⟨same.symm, kept⟩

/-- The left sides of the rows keep the bounds of their rows at a feasible point. -/
theorem forall₂_holds_rows (feasible : program.isFeasible point = true) :
    List.Forall₂ (fun row value => (Row.bounds row).holds value = true)
      program.rows (program.rows.map fun row => row.activity point) := by
  rw [List.forall₂_map_right_iff, List.forall₂_same]
  exact (isFeasible_iff.1 feasible).2.2

/-- No feasible point costs less than the bound that multipliers give. -/
theorem lowerBound_le (feasible : program.isFeasible point = true)
    (costed : costs.length = program.columns.length) {bound : ℚ}
    (found : program.lowerBound costs multipliers = some bound) : bound ≤ dot costs point := by
  have given : point.length = program.columns.length := (isFeasible_iff.1 feasible).1
  have same : costs.length = point.length := costed.trans given.symm
  unfold lowerBound at found
  cases byRows : sumAll (List.zipWith
      (fun row multiplier => (Row.bounds row).leastProduct multiplier)
      program.rows multipliers) with
  | none => simp [byRows] at found
  | some rows =>
  cases byColumns : sumAll (List.zipWith
      (fun column factor => (Column.bounds column).leastProduct factor)
      program.columns (costs.zipIdx.map fun entry =>
        reducedCost program.rows multipliers entry.2 entry.1)) with
  | none => simp [byRows, byColumns] at found
  | some columns =>
  have sum : rows + columns = bound := by simpa [byRows, byColumns] using found
  -- The rows bound what is paid for, and the columns what is left over.
  have paid := le_dot_of_sumAll (forall₂_holds_rows feasible) byRows
  have left := le_dot_of_sumAll (forall₂_holds_columns feasible) byColumns
  rw [dot_eq_sum _ point (by simpa using same) rfl] at left
  have reduced := sum_reducedCost program.rows multipliers point
    fun position => costs.getD position 0
  rw [← dot_eq_sum costs point same rfl] at reduced
  -- Costs and reduced costs stand at the same positions.
  have each : ∀ position : Fin point.length, (costs.zipIdx.map fun entry =>
      reducedCost program.rows multipliers entry.2 entry.1).getD position 0 =
        reducedCost program.rows multipliers position (costs.getD position 0) := by
    intro position
    have inside : position.val < costs.length := by omega
    simp [inside]
  simp only [each] at left
  linarith

end Program

/-- A point moved some way in a direction. -/
def moved (point direction : List ℚ) (way : ℚ) : List ℚ :=
  List.zipWith (fun x change => x + way * change) point direction

section Moved

variable {point direction : List ℚ} (way : ℚ)

/-- Every variable is moved by its part of the direction. -/
theorem getD_moved (same : point.length = direction.length) (position : Nat) :
    (moved point direction way).getD position 0 =
      point.getD position 0 + way * direction.getD position 0 := by
  by_cases inside : position < point.length
  · have also : position < direction.length := by omega
    simp [moved, inside, also]
  · -- Behind both lists everything is zero.
    have also : ¬position < direction.length := by omega
    simp [moved, inside, also]

theorem Row.activity_moved (row : Row) (same : point.length = direction.length) :
    row.activity (moved point direction way) =
      row.activity point + way * row.activity direction := by
  simp only [activity, total_eq_sum, getD_moved way same]
  induction row.terms with
  | nil => simp
  | cons term rest ih =>
    simp only [List.map_cons, List.sum_cons, ih]
    ring

theorem dot_moved (costs : List ℚ) (same : point.length = direction.length)
    (costed : costs.length = point.length) :
    dot costs (moved point direction way) = dot costs point + way * dot costs direction := by
  -- All three lists have one number for each column.
  have count : (moved point direction way).length = point.length := by simp [moved, same]
  rw [dot_eq_sum costs _ costed count, dot_eq_sum costs point costed rfl,
    dot_eq_sum costs direction costed same.symm, Finset.mul_sum, ← Finset.sum_add_distrib]
  refine Finset.sum_congr rfl fun position _ => ?_
  rw [getD_moved way same]
  ring

/-- One does not leave an interval in a direction in which one can go forever. -/
theorem Bounds.holds_of_recedes {bounds : Bounds} {x change : ℚ} {way : ℚ} (ahead : 0 ≤ way)
    (holds : bounds.holds x = true) (recedes : bounds.recedes change = true) :
    bounds.holds (x + way * change) = true := by
  obtain ⟨low, high⟩ := (holds_iff bounds x).1 holds
  rw [Bounds.recedes, Bool.and_eq_true] at recedes
  refine (holds_iff bounds _).2 ⟨fun lower given => ?_, fun upper given => ?_⟩
  · -- A lower end is there only where the direction does not fall.
    have rising : 0 ≤ change := by simpa [Option.mem_def.1 given] using recedes.1
    linarith [low lower given, mul_nonneg ahead rising]
  · -- An upper end is there only where the direction does not rise.
    have falling : change ≤ 0 := by simpa [Option.mem_def.1 given] using recedes.2
    linarith [high upper given, mul_nonpos_of_nonneg_of_nonpos ahead falling]

/-- A feasible point stays feasible in a direction that keeps every bound. -/
theorem isFeasible_moved {program : Program} (feasible : program.isFeasible point = true)
    (recedes : Certificate.recedes program direction = true) (ahead : 0 ≤ way) :
    program.isFeasible (moved point direction way) = true := by
  rw [Certificate.recedes, Bool.and_eq_true, Bool.and_eq_true, beq_iff_eq] at recedes
  obtain ⟨⟨directed, columns⟩, rows⟩ := recedes
  obtain ⟨given, kept, satisfied⟩ := Program.isFeasible_iff.1 feasible
  have same : point.length = direction.length := given.trans directed.symm
  have kept' := (all_zipWith_iff (fun column x => (Column.bounds column).recedes x)
    directed.symm).1 columns
  refine Program.isFeasible_iff.2 ⟨by simp [moved, directed, given], ?_, fun row member => ?_⟩
  · intro position column value
    have inside : position < point.length := by omega
    have also : position < direction.length := by omega
    simpa [moved] using
      Bounds.holds_of_recedes ahead (kept position column inside) (kept' position column also)
  · -- The left side of a row moves as a variable does.
    rw [row.activity_moved way same]
    exact Bounds.holds_of_recedes ahead (satisfied row member) (List.all_eq_true.1 rows row member)

end Moved

/-- What a finding says of a program. -/
def Finding.IsTrue (program : Program) : Finding → Prop
  | optimal point _ => program.IsBest point
  | infeasible => ∀ point, program.isFeasible point = false
  | unbounded => ∀ bound, ∃ point, program.isFeasible point = true ∧
      dot program.minimised point < bound
  | unknown => True

namespace Certificate

variable {program : Program}

/-- What a certificate proves is true. -/
theorem isTrue_of_proves {certificate : Certificate} (proves : certificate.proves program = true) :
    (certificate.finding program).IsTrue program := by
  have costed : program.minimised.length = program.columns.length := List.length_map _
  cases certificate with
  | optimal point multipliers =>
    rw [Certificate.proves, Bool.and_eq_true, Bool.and_eq_true, Option.any_eq_true] at proves
    obtain ⟨⟨feasible, -⟩, bound, found, reached⟩ := proves
    -- The point reaches a bound that no other point falls below.
    refine ⟨feasible, fun other also => ?_⟩
    exact (of_decide_eq_true reached).trans (Program.lowerBound_le also costed found)
  | infeasible multipliers =>
    rw [Certificate.proves, Bool.and_eq_true, Option.any_eq_true] at proves
    obtain ⟨-, bound, found, positive⟩ := proves
    intro point
    rw [← Bool.not_eq_true]
    intro feasible
    -- A point would cost nothing, and no less than a positive bound.
    have above := Program.lowerBound_le feasible (List.length_map _) found
    rw [dot_eq_sum _ point (List.length_map _) (Program.isFeasible_iff.1 feasible).1] at above
    have free : ∀ position : Fin program.columns.length,
        (program.columns.map fun _ => (0 : ℚ)).getD position 0 = 0 := by simp
    simp only [free, zero_mul, Finset.sum_const_zero] at above
    exact (not_lt.2 above) (of_decide_eq_true positive)
  | unbounded point direction =>
    rw [Certificate.proves, Bool.and_eq_true, Bool.and_eq_true, decide_eq_true_eq] at proves
    obtain ⟨⟨feasible, recedes⟩, falls⟩ := proves
    intro bound
    have given : point.length = program.columns.length := (Program.isFeasible_iff.1 feasible).1
    have directed : direction.length = program.columns.length := by
      rw [Certificate.recedes, Bool.and_eq_true, Bool.and_eq_true, beq_iff_eq] at recedes
      exact recedes.1.1
    -- So far that the cost has fallen below the bound.
    let way := (|dot program.minimised point - bound| + 1) / -dot program.minimised direction
    have ahead : 0 ≤ way := div_nonneg (by positivity) (by linarith)
    have fallen : way * dot program.minimised direction =
        -(|dot program.minimised point - bound| + 1) := by
      have nonzero : dot program.minimised direction ≠ 0 := falls.ne
      simp only [way]
      field_simp
    refine ⟨moved point direction way, isFeasible_moved way feasible recedes ahead, ?_⟩
    rw [dot_moved way _ (given.trans directed.symm) (costed.trans given.symm), fallen]
    linarith [le_abs_self (dot program.minimised point - bound)]

/-- A finding that is checked is true. -/
theorem check_isTrue (program : Program) (certificate : Certificate) :
    (check program certificate).IsTrue program := by
  -- What has not been proved is not said, and saying nothing is true.
  unfold check
  split
  case isTrue proves => exact isTrue_of_proves proves
  case isFalse => trivial

end Certificate

/-- The simplex method finds nothing that is not true. -/
theorem simplex_isTrue (program : Program) : (simplex program).IsTrue program := by
  -- Whatever the search comes up with is checked before it is given out.
  unfold simplex
  split
  · exact Certificate.check_isTrue _ _
  · trivial

end CuttingPlanes.Linear
