import CuttingPlanes.Relaxation.Row
import CuttingPlanes.Linear.Program
import Mathlib.Algebra.Order.Ring.Rat
import Mathlib.Algebra.BigOperators.Group.List.Basic
import Mathlib.Data.List.GetD

/-! The arithmetic of rationals and of natural references, in which nothing is refused. -/

namespace CuttingPlanes

/-- Whether two numbers stand in a relation. -/
@[simp] def Relation.between {α : Type} [LinearOrder α] (relation : Relation) (left right : α) :
    Bool :=
  match relation with
  | less => left < right
  | atMost => left ≤ right
  | greater => right < left
  | atLeast => right ≤ left

/-- Numbers that are finite are related as rationals are. -/
@[simp] theorem Extended.related_finite (relation : Relation) (left right : ℚ) :
    (finite left).related relation (finite right) = relation.between left right := by
  -- Exactly one of the three ways to stand holds, and each relation names some of them.
  rcases lt_trichotomy left right with below | same | above
  · cases relation <;> simp [related, compare?, Relation.holds, below, below.le]
  · cases relation <;> simp [related, compare?, Relation.holds, same]
  · cases relation <;> simp [related, compare?, Relation.holds, above, above.le, above.not_gt]

namespace Scalar

variable (p q : ℚ)

@[simp] theorem ofInt_rat (n : Int) : (ofInt n : ℚ) = n := rfl

@[simp] theorem ofRat_rat : (ofRat q : ℚ) = q := rfl

@[simp] theorem real_rat : real q = .ok q := rfl

@[simp] theorem add_rat : add p q = .ok (p + q) := rfl

@[simp] theorem sub_rat : sub p q = .ok (p - q) := rfl

@[simp] theorem mul_rat : mul p q = .ok (p * q) := rfl

@[simp] theorem fixed_rat (places : Nat) :
    fixed places q = .ok (Layout.fixedRational places q) := rfl

@[simp] theorem exact_rat : exact q = .finite q := rfl

@[simp] theorem handed?_rat : handed? q = some (.finite q) := rfl

@[simp] theorem isZero_rat : isZero q = decide (q = 0) := rfl

@[simp] theorem countsTrue_rat : countsTrue q = decide (q ≠ 0) := by
  simp only [countsTrue, bne]
  cases decided : decide (q = 0) <;> simp_all

@[simp] theorem order_rat (relation : Relation) :
    order relation p q = .ok (relation.between p q) :=
  congrArg Except.ok (Extended.related_finite relation p q)

@[simp] theorem magnitude_rat : magnitude q = .ok |q| := by
  -- A number below zero is turned around, and so is its size.
  refine congrArg Except.ok ?_
  rcases lt_or_ge q 0 with below | above
  · rw [if_pos below, abs_of_neg below]
  · rw [if_neg above.not_gt, abs_of_nonneg above]

end Scalar

namespace Ordinal

variable (m n : Nat)

@[simp] theorem ofNat_nat : (ofNat n : Nat) = n := rfl

@[simp] theorem count_nat : count n = .ok n := rfl

@[simp] theorem position_nat : position n = n := rfl

@[simp] theorem order_nat (relation : Relation) :
    order relation m n = .ok (relation.between m n) := by
  refine congrArg Except.ok ?_
  -- Two numbers stand in one of three ways, and each relation asks which.
  rcases lt_trichotomy m n with below | rfl | above
  · cases relation <;> simp [Relation.holds, Nat.compare_eq_lt.2 below, below, below.le]
  · cases relation <;> simp [Relation.holds]
  · cases relation <;> simp [Relation.holds, Nat.compare_eq_gt.2 above, above, above.le]

end Ordinal

/-- References that count as equal are equal. -/
instance (priority := low) lawfulBEqOfOrdinal : @LawfulBEq Nat instBEqOfOrdinal where
  rfl := by intro n; simp [BEq.beq, Ordinal.same]
  eq_of_beq := by intro m n same; simpa [BEq.beq, Ordinal.same] using same

/-- The member of a list at a natural reference. -/
theorem itemAt_nat {α : Type} (items : List α) (position : Nat) :
    itemAt items position =
      match items[position]? with
      | some item => .ok item
      | none => .error .outOfRange := by
  -- A natural reference is its own place, and none is counted from the end.
  have above : ¬((position : Int) < 0) := by omega
  have place : Ordinal.place position = .ok (position : Int) := rfl
  simp only [itemAt, place, bind, Except.bind, if_neg above, Int.toNat_natCast]
  cases items[position]? <;> rfl

/-- The sum of a program's numbers is the sum of a list. -/
theorem Linear.total_eq_sum (numbers : List ℚ) : Linear.total numbers = numbers.sum := by
  induction numbers with
  | nil => rfl
  | cons head rest ih => rw [Linear.total, ih, List.sum_cons]

/-- A number lies between bounds when it is beyond neither end. -/
theorem Linear.Bounds.holds_iff (bounds : Linear.Bounds) (x : ℚ) :
    bounds.holds x = true ↔
      (∀ low ∈ bounds.lower, low ≤ x) ∧ ∀ high ∈ bounds.upper, x ≤ high := by
  -- Each end is missing or compared.
  obtain ⟨lower, upper⟩ := bounds
  rw [holds, Bool.and_eq_true]
  refine and_congr ?_ ?_
  · cases lower with
    | none => simp
    | some low => simp
  · cases upper with
    | none => simp
    | some high => simp

namespace Row

variable {N : Type}

/-- The bounds between which a row keeps its left side. -/
def bounds (row : Row ℚ Nat N) : Linear.Bounds :=
  match row.sense with
  | .atMost => ⟨none, some row.rhs⟩
  | .atLeast => ⟨some row.rhs, none⟩
  | .equal => ⟨some row.rhs, some row.rhs⟩

/-- The constraint that a row stands for. -/
def linear (row : Row ℚ Nat N) : Linear.Row := ⟨row.coefficients, row.bounds⟩

/-- Products are added up without rounding, and columns behind the point add nothing. -/
theorem addProducts_rat (values : List ℚ) (total : ℚ) (terms : List (Nat × ℚ)) :
    addProducts values total terms =
      .ok (total + Linear.total (terms.map fun term => term.2 * values.getD term.1 0)) := by
  -- The total so far is what the remaining products are added to.
  induction terms generalizing total with
  | nil => simp [addProducts, Linear.total]
  | cons term rest ih =>
    obtain ⟨column, coefficient⟩ := term
    by_cases known : column < values.length
    · have item : itemAt values column = .ok values[column] := by
        rw [itemAt_nat, List.getElem?_eq_getElem known]
      simp [addProducts, ih, item, known, bind, Except.bind, Linear.total, add_assoc]
    · simp [addProducts, ih, known, bind, Except.bind, Linear.total]

/-- The left side of a row is that of its constraint. -/
theorem activity_rat (row : Row ℚ Nat N) (values : List ℚ) :
    row.activity values = .ok (row.linear.activity values) := by
  simp [activity, addProducts_rat, Linear.Row.activity, linear]

/-- How far a point is beyond the bounds of a row. -/
def distance (row : Row ℚ Nat N) (values : List ℚ) : ℚ :=
  match row.sense with
  | .atMost => row.linear.activity values - row.rhs
  | .atLeast => row.rhs - row.linear.activity values
  | .equal => |row.linear.activity values - row.rhs|

theorem violation_rat (row : Row ℚ Nat N) (values : List ℚ) :
    row.violation values = .ok (row.distance values) := by
  cases sense : row.sense <;> simp [violation, activity_rat, distance, sense, bind, Except.bind]

/-- A point keeps a row when it is not beyond its bounds. -/
theorem distance_nonpos_iff (row : Row ℚ Nat N) (values : List ℚ) :
    row.distance values ≤ 0 ↔
      row.linear.bounds.holds (row.linear.activity values) = true := by
  -- Each sense measures the side on which its bounds end.
  rw [Linear.Bounds.holds_iff]
  simp only [distance, linear, bounds]
  cases row.sense with
  | atMost => simp
  | atLeast => simp
  | equal =>
    rw [abs_nonpos_iff, sub_eq_zero, eq_comm, le_antisymm_iff]
    simp

end Row

end CuttingPlanes
