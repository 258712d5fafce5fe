import CuttingPlanes.Graph.Forest
import CuttingPlanes.Random.Seed
import CuttingPlanes.Random.Twister
import CuttingPlanes.Spanning.Conversion

/-! Random connected graphs with whole weights from one to a hundred. -/

namespace CuttingPlanes.Benchmark

open CuttingPlanes.Random (Twister)

/-- The pairs of different nodes, by their lower and then by their higher node. -/
def allPairs (count : Nat) : List (Nat × Nat) :=
  (List.range count).flatMap fun low =>
    (List.range' (low + 1) (count - low - 1)).map fun high => (low, high)

/-- The steps of the unit interval, in which drawn reals are counted. -/
def unit : Nat := 9007199254740992

/-- The number of steps from which a drawn real is no longer below a density. -/
def stepsBelow : Extended → Nat
  | .finite density => (density * unit).ceil.toNat
  | .infinite negative => if negative then 0 else unit
  | .undefined => 0

/-- Those of some pairs for which a drawn real has fewer steps than a bound. -/
def drawnPairs (bound : Nat) : List (Nat × Nat) → Action Twister (List (Nat × Nat))
  | [] => return []
  | pair :: rest => do
      let steps ← Twister.unitSteps
      let others ← drawnPairs bound rest
      return if steps < bound then pair :: others else others

/-- The nodes of a random graph: as many as a number says, or the members of another value. -/
inductive Population (L : Type) where
  | counted (count : Int)
  | listed (nodes : Except Fault (List L)) (kind : String)

/-- The nodes of a population. -/
def Population.nodes {L : Type} [NodeLabel L] : Population L → Except Fault (List L)
  | counted count => do
      if count < 0 then throw (.negativeNodeCount (Layout.integer count))
      return (List.range (← Datum.countOf count)).map NodeLabel.ofNat
  | listed nodes _ => nodes

/-- Refuses to draw edges between nodes that are not counted. -/
def Population.checkCounted {L : Type} : Population L → Except Fault Unit
  | counted _ => .ok ()
  | listed _ kind => .error (.notAnInteger kind)

/-- The number of seeds that graphs are drawn from. -/
def seedCount : Nat := 2147483648

variable {K L : Type} [Scalar K] [NodeLabel L]

/--
The nodes of a random graph and its edges by position: all pairs for a density of one, none for
zero, drawn ones in between.
-/
def randomEdges (population : Population L) (density : Datum) (seed : Nat) :
    Action Twister (List L × List (Nat × Nat)) := do
  if ← Action.ofExcept (density.order .atLeast (.int 1)) then
    let nodes ← Action.ofExcept population.nodes
    return (nodes, allPairs nodes.length)
  else
    let nodes ← Action.ofExcept population.nodes
    if ← Action.ofExcept (density.order .atMost (.int 0)) then return (nodes, [])
    else do
      Action.ofExcept population.checkCounted
      let bound := stepsBelow (density.number?.getD .undefined)
      return (nodes,
        ← Action.isolated (drawnPairs bound (allPairs nodes.length)) (Twister.ofSeed seed))

/-- The nodes and edges of the first connected graph, each try with a seed of its own. -/
def connectedEdges (population : Population L) (density : Datum) :
    (fuel : Nat) → Action Twister (List L × List (Nat × Nat))
  | 0 => Action.unfinished
  | fuel + 1 => do
      let seed ← Twister.below seedCount fuel
      let (nodes, edges) ← randomEdges population density seed
      if nodes.isEmpty then Action.raise .nullGraph
      else if Forest.isConnected nodes.length edges then return (nodes, edges)
      else connectedEdges population density fuel

/-- The graph of some nodes with links between those at some positions. -/
def linked (graph : Graph L K) (nodes : List L) (edges : List (Nat × Nat)) :
    Except Fault (Graph L K) := do
  let graph ← graph.addNodes nodes
  edges.foldlM
    (fun graph edge =>
      match nodes[edge.1]?, nodes[edge.2]? with
      | some left, some right => graph.addEdge left right []
      | _, _ => .ok graph)
    graph

/-- A graph with a drawn weight on each of some edges. -/
def weighted (fuel : Nat) (graph : Graph L K) :
    List (L × L × Attributes K) → Action Twister (Graph L K)
  | [] => return graph
  | edge :: rest => do
      let drawn ← Twister.upTo 99 fuel
      let graph ← Action.ofExcept
        (graph.addEdge edge.1 edge.2.1 [(Spanning.costName, Scalar.ofRat (drawn + 1))])
      weighted fuel graph rest

/-- The name of a random graph. -/
def sampleName (count seed : Datum) : Datum := .text ("gnp_" ++ count.plain ++ "_" ++ seed.plain)

/-- A connected random graph on a population. -/
def sample (population : Population L) (density name : Datum) (fuel : Nat) :
    Action Twister (Graph L K) := do
  let (nodes, edges) ← connectedEdges population density fuel
  let graph : Graph L K ← Action.ofExcept (linked (Graph.empty .simple name) nodes edges)
  weighted fuel graph graph.edges

/-- The sample of a seed. -/
def sampleOf {σ : Type} (count : Int) (density : Datum) (seed : Int) (fuel : Nat) :
    Action σ (Graph Nat K) :=
  let name := sampleName (.int count) (.int seed)
  Action.isolated (sample (.counted count) density name fuel) (Twister.ofSeed seed)

/-- The sample whose nodes, density and seed are values of any kind. -/
def sampleOfData {σ : Type} (count density seed : Datum) (fuel : Nat) :
    Action σ (Graph Datum Datum) := do
  let seedNumber ← Action.ofExcept (Random.Seed.ofDatum seed)
  let population : Population Datum :=
    match count.toIndex with
    | .ok count => .counted count
    | .error _ => .listed count.members count.kind
  Action.isolated (sample population density (sampleName count seed) fuel)
    (Twister.ofSeed seedNumber)

end CuttingPlanes.Benchmark
