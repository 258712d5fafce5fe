/-! Linear programs over the rationals, their points, and what a solver may say about them. -/

namespace CuttingPlanes.Linear

/-- An interval, open to infinity where an end is missing. -/
structure Bounds where
  lower : Option Rat
  upper : Option Rat
  deriving DecidableEq, Repr

/-- Whether a number lies between the ends. -/
def Bounds.holds (bounds : Bounds) (x : Rat) : Bool :=
  bounds.lower.all (· ≤ x) && bounds.upper.all (x ≤ ·)

/-- Whether one can go in a direction forever without leaving the interval. -/
def Bounds.recedes (bounds : Bounds) (direction : Rat) : Bool :=
  bounds.lower.all (fun _ => decide (0 ≤ direction)) &&
    bounds.upper.all (fun _ => decide (direction ≤ 0))

/-- A variable with its cost. -/
structure Column where
  cost : Rat
  bounds : Bounds
  deriving DecidableEq, Repr

/-- A constraint on a sum of multiples of variables, each named by its position. -/
structure Row where
  terms : List (Nat × Rat)
  bounds : Bounds
  deriving DecidableEq, Repr

/-- The sum of numbers. -/
def total : List Rat → Rat
  | [] => 0
  | x :: rest => x + total rest

/-- The sum of a row's terms at a point; a variable that the point leaves out counts as zero. -/
def Row.activity (row : Row) (point : List Rat) : Rat :=
  total (row.terms.map fun term => term.2 * point.getD term.1 0)

/-- The sum of products, position by position. -/
def dot (costs point : List Rat) : Rat := total (List.zipWith (· * ·) costs point)

/-- The program of finding the least or the greatest cost. -/
structure Program where
  maximise : Bool
  columns : List Column
  rows : List Row
  deriving DecidableEq, Repr

namespace Program

/-- The costs of the variables. -/
def costs (program : Program) : List Rat := program.columns.map Column.cost

/-- The costs with the sign under which less is better. -/
def minimised (program : Program) : List Rat :=
  program.columns.map fun column => if program.maximise then -column.cost else column.cost

/-- The cost of a point. -/
def objective (program : Program) (point : List Rat) : Rat := dot program.costs point

/-- Whether a point keeps every bound. -/
def isFeasible (program : Program) (point : List Rat) : Bool :=
  point.length == program.columns.length &&
    (List.zipWith (fun column x => column.bounds.holds x) program.columns point).all id &&
    program.rows.all fun row => row.bounds.holds (row.activity point)

end Program

/-- What is known about a program after a search. -/
inductive Finding where
  /-- A best point, with the change of the best cost for a change of each row's bound. -/
  | optimal (point duals : List Rat)
  | infeasible
  | unbounded
  /-- Nothing. -/
  | unknown
  deriving DecidableEq, Repr

/-- A way to search programs. -/
abbrev Solver := Program → Finding

end CuttingPlanes.Linear
