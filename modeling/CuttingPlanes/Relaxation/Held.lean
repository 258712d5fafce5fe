import CuttingPlanes.Linear.Simplex
import CuttingPlanes.Relaxation.Basic

/-!
The model that an exact solver holds. Some columns and rows are refused without a word, tiny
coefficients are dropped, and large bounds and costs count as infinite. Only an upper bound that is
no number is refused aloud.
-/

namespace CuttingPlanes

/-- A column of the model; its cost may be beyond all numbers. -/
structure HeldColumn where
  cost : Extended
  bounds : Linear.Bounds

/-- The model of a solver. -/
structure Held (K : Type) where
  objective : Objective
  columns : List HeldColumn
  rows : List Linear.Row
  /-- The longest time for a solve, which exact solves never take. -/
  timeLimit : Option K

namespace Held

variable {K ι N : Type}

/-- The name under which a program with this backend is shown. -/
def title : String := "HiGHSRowModel"

/-- The model without columns and rows. -/
def empty (objective : Objective) (timeLimit : Option K) : Held K :=
  ⟨objective, [], [], timeLimit⟩

/-- The size from which a bound is infinite. -/
def infinity : Rat := 100000000000000000000

/-- The size from which a coefficient is refused. -/
def greatestCoefficient : Rat := 1000000000000000

/-- The size up to which a coefficient is dropped: the double nearest to a billionth. -/
def tiny : Rat := 4835703278458517 / 4835703278458516698824704

/-- A cost, taken as infinite when it is large. -/
def heldCost (cost : Extended) : Extended :=
  if cost.related .atLeast (.finite infinity) then .infinite false
  else if cost.related .atMost (.finite (-infinity)) then .infinite true
  else cost

/-- The interval between two ends, refused when a lower end is too high or an upper one too low. -/
def bounds? (lower upper : Extended) : Option Linear.Bounds :=
  if lower.related .less (.finite infinity) && upper.related .greater (.finite (-infinity)) then
    some
      { lower := lower.rational?.bind fun low => if low ≤ -infinity then none else some low
        upper := upper.rational?.bind fun high => if infinity ≤ high then none else some high }
  else none

/--
The terms that stay of a row, refused for a great coefficient, a column not in the model or a
column that comes again.
-/
def terms? (count : Nat) : List (Nat × Extended) → Option (List (Nat × Rat))
  | [] => some []
  | (column, coefficient) :: rest => do
      let others ← terms? count rest
      match coefficient with
      | .finite a =>
          let size := if a < 0 then -a else a
          if greatestCoefficient ≤ size ∨ count ≤ column ∨ column ∈ rest.map Prod.fst then none
          else if size ≤ tiny then some others
          else some ((column, a) :: others)
      | _ => none

/-- The ends of the interval that a row asks for. -/
def rowEnds (sense : Sense) (rhs : Extended) : Extended × Extended :=
  match sense with
  | .atMost => (.infinite true, rhs)
  | .atLeast => (rhs, .infinite false)
  | .equal => (rhs, rhs)

variable [Scalar K] [Ordinal ι] [RowName N]

/-- The model without columns and rows, unless its verbosity is not a number. -/
def opened (objective : Objective) (timeLimit : Option K) (verbosity : K) :
    Except Fault (Held K) := do
  let _ ← Scalar.order .greater verbosity (Scalar.ofInt 0)
  return empty objective timeLimit

/-- The end that an upper bound is handed on as, which is infinity where there is no bound. -/
def upperEnd? (upper : Option K) : Option Extended :=
  match upper with
  | some upper => Scalar.handed? upper
  | none => some (.infinite false)

/--
Adds a column unless its bounds are refused.

Cost and lower bound have been made real before, but an upper bound may be no number at all.
-/
def addColumn (column : Column K N) : Action (Held K) Unit :=
  match upperEnd? column.upper with
  | none => Action.raise (.unsuitedArguments "addCol")
  | some upper =>
      match bounds? (Scalar.exact column.lower) upper with
      | some bounds => Action.modify fun held =>
          { held with columns := held.columns ++ [⟨heldCost (Scalar.exact column.cost), bounds⟩] }
      | none => pure ()

/-- The columns of a row by position, with exact coefficients. -/
def exactTerms (terms : List (ι × K)) : List (Nat × Extended) :=
  terms.map fun term => (Ordinal.position term.1, Scalar.exact term.2)

/-- Adds a row unless its terms or its right side are refused. -/
def addRow (row : Row K ι N) : Action (Held K) Unit := do
  let exact := exactTerms row.coefficients
  let held ← Action.get
  let ends := rowEnds row.sense (Scalar.exact row.rhs)
  match bounds? ends.1 ends.2, terms? held.columns.length exact with
  | some bounds, some terms => Action.set { held with rows := held.rows ++ [⟨terms, bounds⟩] }
  | _, _ => pure ()

/-- Whether an infinite cost is the worse, the more a column has of it. -/
def HeldColumn.shrinks (objective : Objective) (negative : Bool) : Bool :=
  negative == (objective == .greatest)

/--
A column of the program. An infinite cost fixes the column at the end of its interval where that
cost hurts least and leaves it without a cost; there is no such column where that end is open.
-/
def HeldColumn.settled? (objective : Objective) (column : HeldColumn) : Option Linear.Column :=
  match column.cost with
  | .finite cost => some ⟨cost, column.bounds⟩
  | .infinite negative => do
      let fixed ←
        if shrinks objective negative then column.bounds.lower else column.bounds.upper
      return ⟨0, ⟨some fixed, some fixed⟩⟩
  | .undefined => none

/-- What infinite costs add to the cost of a point: nothing where a column is zero. -/
def HeldColumn.infiniteCost (column : HeldColumn) (value : Rat) : Extended :=
  match column.cost with
  | .infinite negative =>
      if value = 0 then .finite 0 else .infinite (negative != decide (value < 0))
  | _ => .finite 0

/-- The linear program of a model, when all of its columns can be settled. -/
def program? (held : Held K) : Option Linear.Program := do
  let columns ← held.columns.mapM (HeldColumn.settled? held.objective)
  return ⟨held.objective == .greatest, columns, held.rows⟩

/-- Whether a cost of the model is infinite. -/
def hasInfiniteCost (held : Held K) : Bool :=
  held.columns.any fun column => column.cost.rational?.isNone

/-- The cost of a point with its infinite parts. -/
def totalCost (held : Held K) (program : Linear.Program) (point : List Rat) : Extended :=
  (List.zipWith HeldColumn.infiniteCost held.columns point).foldl Extended.add
    (.finite (program.objective point))

/-- The numbers of columns, rows and coefficients in the model. -/
def counts (held : Held K) : Nat × Nat × Nat :=
  (held.columns.length, held.rows.length,
    held.rows.foldl (fun count row => count + row.terms.length) 0)

/-- What a solver says about a model, with a point, its cost and the duals where it has them. -/
def judged (solver : Linear.Solver) (held : Held K) :
    Verdict × Option (Extended × List Rat × List Rat) :=
  if held.columns.isEmpty then (.modelEmpty, some (.finite 0, [], []))
  else match held.program? with
    | none => (.other, none)
    | some program =>
        match solver program with
        | .optimal point duals => (.optimal, some (held.totalCost program point, point, duals))
        -- Columns that infinite costs have fixed may be what keeps every point out.
        | .infeasible => (if held.hasInfiniteCost then .other else .infeasible, none)
        | .unbounded => (.unbounded, none)
        | .unknown => (.other, none)

/-- The answer to a model, for given numbers of recorded columns and rows. -/
def answer (solver : Linear.Solver) (held : Held K) (columns rows : Nat) : LpAnswer K :=
  let (verdict, found) := held.judged solver
  let unsolved : LpAnswer K := { LpAnswer.unsolved with status := verdict.status, rowCount := rows }
  match found with
  | none => unsolved
  | some (objective, point, duals) =>
      { unsolved with
        objective := Scalar.ofExtended objective
        values := (point.map Scalar.ofRat).take columns
        duals := (duals.map Scalar.ofRat).take rows }

/-- The backend of a solver. -/
def backend (solver : Linear.Solver) : Backend (Held K) K ι N where
  addColumn := addColumn
  addRow := addRow
  before := pure ()
  solve columns rows := do return (← Action.get).answer solver columns rows
  after := pure

end Held

end CuttingPlanes
