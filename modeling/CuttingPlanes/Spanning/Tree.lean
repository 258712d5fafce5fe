import CuttingPlanes.Loop.Report
import CuttingPlanes.Spanning.Conversion

/-! The tree that a run has found. -/

namespace CuttingPlanes.Spanning

/-- The result of a run on a spanning-tree problem. -/
structure Tree (K ι : Type) where
  ending : Ending
  objective : Option K
  /-- The value of every edge, by its two nodes. -/
  values : List ((ι × ι) × K)
  /-- The edges that were taken. -/
  edges : List (Edge ι K)
  rowsAdded : Int
  iterations : Int
  totalTime : K
  report : Option (Report K LpStatus)

namespace Tree

variable {K ι L : Type} [Scalar K] [Ordinal ι]

/-- Whether the tree is proven to be a lightest one. -/
def isOptimal (tree : Tree K ι) : Bool := tree.ending == .optimal

/-- The total cost of the edges that were taken. -/
def totalCost (tree : Tree K ι) : Except Fault K :=
  tree.edges.foldlM (fun total edge => Scalar.add total edge.cost) (Scalar.ofInt 0)

/-- Whether a value is whole up to a tolerance. -/
def isWhole (tolerance value : K) : Except Fault Bool := do
  let distance ← Scalar.magnitude (← Scalar.sub value (← Scalar.nearest value))
  Scalar.order .atMost distance tolerance

/-- Whether all values are whole up to a tolerance. -/
def allWhole (tolerance : K) : List K → Except Fault Bool
  | [] => .ok true
  | value :: rest => do
      if ← isWhole tolerance value then allWhole tolerance rest else return false

/-- Whether the values of all edges are whole up to a tolerance. -/
def isIntegral (tree : Tree K ι) (tolerance : K) : Except Fault Bool :=
  allWhole tolerance (tree.values.map Prod.snd)

/-- The edges that were taken as a graph over the labels of a problem. -/
def toGraph [NodeLabel L] (tree : Tree K ι) (problem : Problem K ι L) :
    Except Fault (Graph L K) :=
  graphOf (.text "") problem.labels tree.edges

/-- The lines that describe a tree. -/
def summary (tree : Tree K ι) : Except Fault String := do
  let objective ← match tree.objective with
    | some objective => do pure ["  LP objective: " ++ (← Scalar.fixed 6 objective)]
    | none => pure []
  let cost ← Scalar.fixed 6 (← tree.totalCost)
  let time ← Scalar.fixed 3 tree.totalTime
  return String.intercalate "\n" <|
    ["Spanning Tree Solution:", "  Status: " ++ tree.ending.name] ++ objective ++
    [ "  Tree edges: " ++ Layout.integer tree.edges.length ++ " (cost " ++ cost ++ ")",
      "  Subtour rows added: " ++ Layout.integer tree.rowsAdded,
      "  Iterations: " ++ Layout.integer tree.iterations,
      "  Time: " ++ time ++ "s" ]

end Tree

end CuttingPlanes.Spanning
