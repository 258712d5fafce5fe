import CuttingPlanes.Spanning.Problem

/-! Spanning-tree problems from graphs, and graphs from spanning-tree problems. -/

namespace CuttingPlanes.Spanning

variable {K ι L : Type} [Scalar K] [Ordinal ι] [NodeLabel L]

/-- The name of the attribute that holds the cost of an edge. -/
def costName : String := "weight"

/-- The attribute that a value names. -/
def attribute? (name : Datum) (attributes : List (String × K)) : Except Fault (Option K) := do
  name.checkKey
  match name with
  | .text name => return Association.find? name attributes
  | _ => return none

/-- The cost that attributes give, or a default. -/
def costOf (name : Datum) (default : K) (attributes : List (String × K)) : Except Fault K := do
  Scalar.real ((← attribute? name attributes).getD default)

/-- The position of a node as a reference. -/
def reference (graph : Graph L K) (node : L) : ι :=
  Ordinal.ofNat ((graph.position? node).getD graph.nodes.length)

/-- The first of two names that counts as true. -/
def chosenName (given held : Datum) : Datum :=
  if given.countsTrue then given else if held.countsTrue then held else .nothing

/-- The problem of a graph: its nodes by position, its edges with the cost of one attribute. -/
def Problem.ofGraph (graph : Graph L K) (key : Datum) (default : K) (name : Datum) :
    Except Fault (Problem K ι L) := do
  if graph.kind = .directed then throw .directed
  let edges ← graph.edges.mapM fun edge => do
    return (⟨reference graph edge.1, reference graph edge.2.1,
      ← costOf key default edge.2.2⟩ : Edge ι K)
  Problem.make (Ordinal.ofNat graph.nodes.length) edges (some graph.nodes)
    (chosenName name graph.name)

/-- Adds edges between labelled nodes to a graph. -/
def addLabelled (labels : Labels L) (graph : Graph L K) :
    List (Edge ι K) → Except Fault (Graph L K)
  | [] => .ok graph
  | edge :: rest => do
      let left ← labels.labelAt edge.left
      let right ← labels.labelAt edge.right
      addLabelled labels (← graph.addEdge left right [(costName, edge.cost)]) rest

/-- The graph of a problem's labels with some edges. -/
def graphOf (name : Datum) (labels : Labels L) (edges : List (Edge ι K)) :
    Except Fault (Graph L K) := do
  addLabelled labels (← (Graph.empty .simple name).addNodes labels.nodes) edges

/-- The graph of a problem; of edges between the same nodes the last one gives the cost. -/
def Problem.toGraph (problem : Problem K ι L) : Except Fault (Graph L K) :=
  graphOf (if problem.name.countsTrue then problem.name else .text "") problem.labels problem.edges

end CuttingPlanes.Spanning
