import CuttingPlanes.Loop.Supervisor
import CuttingPlanes.Separator.Basic
import CuttingPlanes.Spanning.Subtour
import CuttingPlanes.Spanning.Tree

/-! Lightest spanning trees by linear programming, subtour rows added where they are violated. -/

namespace CuttingPlanes.Spanning

/-- What a run is told besides its problem. -/
structure Choices (K : Type) where
  limits : Limits K
  /-- The policy, or why there is none. -/
  policy : Except Fault Policy
  /-- How far a cut may be exceeded without being violated. -/
  violation : K
  /-- How far from a whole number a value may be. -/
  integrality : K

variable {β κ ρ K ι L N : Type} [Scalar K] [Ordinal ι] [RowName N]

/-- What a run changes: the clock, the counters, the rotation and the program. -/
abbrev RunState (κ ρ β K ι N : Type) : Type :=
  κ × (Tally × (Rotation ρ × (Relaxation K ι N × β)))

/-- The state of a run before it begins. -/
def RunState.begun (time : κ) (generator : ρ) (model : β) : RunState κ ρ β K ι N :=
  (time, Tally.zero, Rotation.ofGenerator generator, Relaxation.empty .least, model)

/-- The name of the column of an edge. -/
def columnName (edge : Edge ι K) : N :=
  RowName.ofText ("x_" ++ Ordinal.text edge.left ++ "_" ++ Ordinal.text edge.right)

/-- One column for each edge, between zero and one. -/
def addColumns (backend : Backend β K ι N) :
    List (Edge ι K) → Action (Relaxation K ι N × β) (List ι)
  | [] => return []
  | edge :: rest => do
      let column ← Relaxation.addColumn backend edge.cost (Scalar.ofRat 0) (some (Scalar.ofRat 1))
        (some (columnName edge))
      return Ordinal.ofNat column :: (← addColumns backend rest)

/-- The row that a tree has one edge less than it has nodes. -/
def cardinality (problem : Problem K ι L) (columns : List ι) : Row K ι N where
  coefficients := Association.ofPairs (columns.map fun column => (column, Scalar.ofRat 1))
  sense := .equal
  rhs := Scalar.ofInt (problem.labels.nodes.length - 1)
  name := some (RowName.ofText "cardinality")

/-- The program of a problem without any subtour row; gives the columns of the edges. -/
def build (backend : Backend β K ι N) (problem : Problem K ι L) :
    Action (Relaxation K ι N × β) (List ι) := do
  let columns ← addColumns backend problem.edges
  let _ ← Relaxation.addRow backend (cardinality problem columns)
  return columns

/-- Of two measures the greater one is the worse. -/
def exceeds {σ : Type} (best measure : Option K) : Action σ Bool :=
  match best, measure with
  | some held, some found => Action.ofExcept (Scalar.order .less held found)
  | _, _ => return false

/-- The alternation of solving the program and looking for a violated subtour row. -/
def task (backend : Backend β K ι N) (cuts : Subtours K ι L) (policy : Policy)
    (draw : Random.Draw ρ) (fuel : Nat) :
    Task (Tally × (Rotation ρ × (Relaxation K ι N × β))) (LpAnswer K) LpStatus Bool where
  solve := (Relaxation.solve backend).onSecond.onSecond
  separate :=
    (Separator.ofPolicy policy (cuts.family backend) exceeds pure draw fuel).call fuel
  optimal := .optimal

/-- The values of edges by their nodes, and the edges whose value is one up to a tolerance. -/
def collect (values : List K) (columns : List ι) (tolerance : K) :
    (position : Nat) → List (Edge ι K) → (List ((ι × ι) × K) × List (Edge ι K)) →
    Except Fault (List ((ι × ι) × K) × List (Edge ι K))
  | _, [], found => .ok found
  | position, edge :: rest, (known, taken) => do
      let column ← match columns[position]? with
        | some column => pure column
        | none => throw .outOfRange
      let value ← itemAt values column
      let threshold ← Scalar.sub (Scalar.ofRat 1) tolerance
      let known := Association.insert (edge.left, edge.right) value known
      let taken := if ← Scalar.order .greater value threshold then taken ++ [edge] else taken
      collect values columns tolerance (position + 1) rest (known, taken)

/-- The tree of a finished run. -/
def treeOf (problem : Problem K ι L) (choices : Choices K) (columns : List ι) (values : List K)
    (report : Report K LpStatus) : Except Fault (Tree K ι) := do
  let (known, taken) ←
    if report.isOptimal then collect values columns choices.integrality 0 problem.edges ([], [])
    else pure ([], [])
  return {
    ending := report.ending
    objective := report.objective
    values := known
    edges := taken
    rowsAdded := report.rowsAdded
    iterations := report.iterations
    totalTime := report.totalTime
    report := some report }

/-- Solves a problem from a fresh state. -/
def solve (backend : Backend β K ι N) (problem : Problem K ι L) (choices : Choices K)
    (draw : Random.Draw ρ) (clock : Clock κ K) (fuel : Nat) :
    Action (RunState κ ρ β K ι N) (Tree K ι) := do
  let columns ← (build backend problem).onSecond.onSecond.onSecond
  let policy ← Action.ofExcept choices.policy
  let cuts : Subtours K ι L := ⟨problem, columns, choices.violation⟩
  let supervisor := Supervisor.ofTask (task backend cuts policy draw fuel) choices.limits
  let report ← supervisor.solve clock fuel
  let values := (← Action.get).2.2.2.1.values
  Action.ofExcept (treeOf problem choices columns values report)

/-- Solves a problem with its own counters, rotation and program, beside a clock that goes on. -/
def solveAfresh (backend : Backend β K ι N) (model : β) (problem : Problem K ι L)
    (choices : Choices K) (draw : Random.Draw ρ) (generator : ρ) (clock : Clock κ K)
    (fuel : Nat) : Action κ (Tree K ι) := fun time =>
  let outcome :=
    (solve backend problem choices draw clock fuel).run (RunState.begun time generator model)
  ⟨outcome.result, outcome.state.1, outcome.log⟩

end CuttingPlanes.Spanning
