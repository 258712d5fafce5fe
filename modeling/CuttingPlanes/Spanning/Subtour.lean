import CuttingPlanes.Relaxation.Basic
import CuttingPlanes.Separator.Family
import CuttingPlanes.Spanning.Problem
import CuttingPlanes.Spanning.Subset

/-! Subtour cuts: inside every set of nodes a tree has fewer edges than the set has nodes. -/

namespace CuttingPlanes.Spanning

/-- Subtour cuts of a problem over a program with one column for each edge. -/
structure Subtours (K ι L : Type) where
  problem : Problem K ι L
  /-- The columns of the edges, in the order of the edges. -/
  columns : List ι
  /-- How far a cut may be exceeded without being violated. -/
  tolerance : K

namespace Subtours

variable {β K ι L N : Type} [Scalar K] [Ordinal ι] [RowName N]

/-- The columns of those edges, from a position on, that have both ends in a set. -/
def columnsFrom (columns : List ι) (nodes : List ι) :
    (position : Nat) → List (Edge ι K) → Except Fault (List ι)
  | _, [] => .ok []
  | position, edge :: rest =>
      if nodes.contains edge.left && nodes.contains edge.right then
        match columns[position]? with
        | some column => do return column :: (← columnsFrom columns nodes (position + 1) rest)
        | none => .error .outOfRange
      else columnsFrom columns nodes (position + 1) rest

/-- The columns of the edges inside a set. -/
def inside (cuts : Subtours K ι L) (nodes : List ι) : Except Fault (List ι) :=
  columnsFrom cuts.columns nodes 0 cuts.problem.edges

/-- The name of the row of a set. -/
def rowName (nodes : List ι) : N :=
  RowName.ofText ("subtour_" ++ String.intercalate "_" (nodes.map Ordinal.text))

/-- The row of a set: its inner edges have at most one less than its size in total. -/
def row (cuts : Subtours K ι L) (nodes : List ι) : Except Fault (Row K ι N) := do
  let columns ← cuts.inside nodes
  return {
    coefficients := Association.ofPairs (columns.map fun column => (column, Scalar.ofRat 1))
    sense := .atMost
    rhs := Scalar.ofRat (nodes.length - 1)
    name := some (rowName nodes) }

/-- How far the row of a set is exceeded at a point, where that is more than the tolerance. -/
def excess (N : Type) [RowName N] (cuts : Subtours K ι L) (point : List K) (nodes : List ι) :
    Except Fault (Option K) := do
  let row : Row K ι N ← cuts.row nodes
  let excess ← row.violation point
  return if ← Scalar.order .greater excess cuts.tolerance then some excess else none

/-- The subtour rows as a family over the program, measured at its current values. -/
def family (cuts : Subtours K ι L) (backend : Backend β K ι N) :
    Family (Relaxation K ι N × β) (List ι) (Option K) where
  enumerate := pure (subsets cuts.problem.size)
  measure nodes := do
    let point := (← Action.get).1.values
    Action.ofExcept (cuts.excess N point nodes)
  commit nodes := do
    let _ ← Relaxation.addRow backend (← Action.ofExcept (cuts.row nodes))
  describe := shownSet

end Subtours

end CuttingPlanes.Spanning
