import CuttingPlanes.Benchmark.Sample
import CuttingPlanes.Random.Generator
import CuttingPlanes.Relaxation.Held
import CuttingPlanes.Spanning.Solve

/-! The policies compared on one graph, each against the weight of a lightest spanning tree. -/

namespace CuttingPlanes.Benchmark

/-- The result of one policy on one graph. -/
structure Result (K : Type) where
  instanceName : Datum
  nodes : Nat
  edges : Nat
  policy : Policy
  ending : Ending
  objective : Option K
  /-- The weight of a lightest spanning forest. -/
  treeWeight : K
  /-- Whether the objective is that weight. -/
  isMatch : Bool
  rowsAdded : Int
  iterations : Int
  time : K

/-- The policies in the order in which they are tried. -/
def policies : List Policy := [.deepest, .first, .shuffled]

/-- The name under which the benchmark reports. -/
def source : String := "compare_strategies"

/-- A report of the benchmark. -/
def note (message : String) : LogEntry := ⟨.info, source, message⟩

variable {κ K L : Type} [Scalar K]

/-- What a comparison is told besides its graph. -/
structure Setup (κ K : Type) where
  solver : Linear.Solver
  /-- How far a cut may be exceeded without being violated. -/
  violation : K
  /-- How far from a whole number a value may be. -/
  integrality : K
  clock : Clock κ K
  fuel : Nat

/-- The weight of a lightest spanning forest of a problem. -/
def forestWeight (problem : Spanning.Problem K Nat L) : K :=
  Scalar.ofRat (Forest.weight problem.size (problem.edges.filterMap fun edge =>
    (Scalar.exact edge.cost).rational?.map fun cost => (edge.left, edge.right, cost)))

/-- The difference up to which two weights are the same. -/
def matchTolerance : K := Scalar.ofRat (1 / 1000000)

/-- Whether an objective is a weight; a missing or vanishing one counts as zero. -/
def matchesWeight (objective : Option K) (weight : K) : Except Fault Bool := do
  let found := match objective with
    | some objective => if Scalar.countsTrue objective then objective else Scalar.ofRat 0
    | none => Scalar.ofRat 0
  let gap ← Scalar.magnitude (← Scalar.sub found weight)
  Scalar.order .less gap matchTolerance

/-- The line that reports a result. -/
def resultLine (result : Result K) : Except Fault String := do
  let time ← Scalar.fixed 3 result.time
  return "  " ++ Layout.flushLeft 7 result.policy.word ++
    " rows=" ++ Layout.flushLeft 5 (Layout.integer result.rowsAdded) ++
    " iters=" ++ Layout.flushLeft 5 (Layout.integer result.iterations) ++
    " time=" ++ time ++ "s obj=" ++ Supervisor.objectiveText result.objective ++
    " (mst=" ++ Scalar.text result.treeWeight ++ ")"

/-- Solves a problem with one policy. -/
def comparePolicy (setup : Setup κ K) (problem : Spanning.Problem K Nat L) (weight : K)
    (seed : Int) (policy : Policy) : Action κ (Result K) := do
  let choices : Spanning.Choices K :=
    ⟨Limits.none, .ok policy, setup.violation, setup.integrality⟩
  let backend : Backend (Held K) K Nat String := Held.backend setup.solver
  let tree ← Spanning.solveAfresh backend (Held.empty .least none) problem choices
    (Random.Generator.draw setup.fuel) (Random.Generator.ofSeed seed) setup.clock setup.fuel
  let isMatch ← Action.ofExcept (matchesWeight tree.objective weight)
  let result : Result K :=
    { instanceName := problem.name
      nodes := problem.size
      edges := problem.edges.length
      policy := policy
      ending := tree.ending
      objective := tree.objective
      treeWeight := weight
      isMatch := isMatch
      rowsAdded := tree.rowsAdded
      iterations := tree.iterations
      time := tree.totalTime }
  Action.report (note (← Action.ofExcept (resultLine result)))
  return result

/-- Solves the problem of a graph with every policy. -/
def compareGraph [NodeLabel L] (setup : Setup κ K) (graph : Graph L K) (seed : Int) :
    Action κ (List (Result K)) := do
  let problem : Spanning.Problem K Nat L ← Action.ofExcept
    (Spanning.Problem.ofGraph graph (.text Spanning.costName) (Scalar.ofRat 1) .nothing)
  policies.mapM (comparePolicy setup problem (forestWeight problem) seed)

end CuttingPlanes.Benchmark
