import CuttingPlanes.Proofs.Graph.Forest
import CuttingPlanes.Proofs.Graph.Simple
import CuttingPlanes.Proofs.Relaxation.Request
import CuttingPlanes.Proofs.Spanning.Network
import CuttingPlanes.Spanning.Conversion

/-! Problems of graphs with exact costs, in which no edge leads from a node to itself. -/

namespace CuttingPlanes

variable {L : Type} [NodeLabel L]

/-- An undirected graph, all edges of which join two different nodes. -/
structure Graph.IsLoopless {K : Type} (graph : Graph L K) : Prop where
  undirected : graph.kind ≠ .directed
  known : ∀ edge ∈ graph.edges,
    graph.place edge.1 < graph.nodes.length ∧ graph.place edge.2.1 < graph.nodes.length
  apart : ∀ edge ∈ graph.edges, graph.place edge.1 ≠ graph.place edge.2.1

namespace Spanning

variable {graph : Graph L ℚ}

/-- The cost that attributes give, which is one where they give none. -/
def exactCost (attributes : Attributes ℚ) : ℚ := (Association.find? costName attributes).getD 1

/-- The problem of a graph whose costs are exact. -/
def Problem.numbered (graph : Graph L ℚ) : Problem ℚ Nat L where
  size := graph.nodes.length
  edges := graph.edges.map fun edge =>
    ⟨graph.place edge.1, graph.place edge.2.1, exactCost edge.2.2⟩
  labels := .listed graph.nodes
  name := chosenName .nothing graph.name

/-- The problem of a graph without loops is sound if there are nodes. -/
theorem Problem.isSound_numbered (loopless : graph.IsLoopless) (some : graph.nodes ≠ []) :
    (Problem.numbered graph).IsSound where
  positive := List.length_pos_iff.2 some
  left_lt := List.forall_mem_map.2 fun edge member => (loopless.known edge member).1
  right_lt := List.forall_mem_map.2 fun edge member => (loopless.known edge member).2
  apart := List.forall_mem_map.2 loopless.apart
  labelled := rfl

namespace Problem

/-- An edge that joins two different nodes passes its check. -/
theorem checkEdge_eq_ok {size left right : Nat} (first : left < size) (second : right < size)
    (apart : left ≠ right) : checkEdge size left right = .ok () := by
  simp [checkEdge, isNode, first, second, apart, bind, Except.bind, pure, Except.pure]

/-- What is sound passes all checks. -/
theorem IsSound.make_eq_ok {size : Nat} {edges : List (Edge Nat ℚ)} {labels : List L}
    {name : Datum} (sound : IsSound ⟨size, edges, .listed labels, name⟩) :
    make size edges (some labels) name = .ok ⟨size, edges, .listed labels, name⟩ := by
  have sized : checkSize size = .ok () := by
    have some : ¬size < 1 := not_lt.2 sound.positive
    simp [checkSize, some, bind, Except.bind, pure, Except.pure]
  have checked : (edges.forM fun edge => checkEdge size edge.left edge.right) = .ok () :=
    Relaxation.forM_eq_ok.2 fun edge member =>
      checkEdge_eq_ok (sound.left_lt edge member) (sound.right_lt edge member)
        (sound.apart edge member)
  have counted : checkLabels size labels.length = .ok () := by
    have same : labels.length = size := sound.labelled
    simp [checkLabels, same]
  simp [make, sized, checked, counted, bind, Except.bind, pure, Except.pure]

/-- The edges of a graph are read one by one, and none of them is refused. -/
theorem ofGraph_eq_make (undirected : graph.kind ≠ .directed) :
    ofGraph graph (.text costName) 1 .nothing =
      make graph.nodes.length (numbered graph).edges (some graph.nodes)
        (chosenName .nothing graph.name) := by
  -- The cost of every edge is real already, so that nothing is refused.
  have read : (fun edge : L × L × Attributes ℚ => do
      return (⟨reference graph edge.1, reference graph edge.2.1,
        ← costOf (.text costName) 1 edge.2.2⟩ : Edge Nat ℚ)) = fun edge =>
      (pure ⟨graph.place edge.1, graph.place edge.2.1, exactCost edge.2.2⟩ :
        Except Fault (Edge Nat ℚ)) := by
    funext edge
    rw [← graph.place_eq, ← graph.place_eq]
    rfl
  rw [ofGraph, if_neg undirected, read, List.mapM_pure]
  rfl

/-- A graph without loops makes its problem, unless it has no nodes. -/
theorem ofGraph_eq (loopless : graph.IsLoopless) :
    ofGraph graph (.text costName) 1 .nothing =
      if graph.nodes = [] then .error .noNodes else .ok (numbered graph) := by
  rw [ofGraph_eq_make loopless.undirected]
  by_cases none : graph.nodes = []
  · rw [if_pos none, none]
    rfl
  · rw [if_neg none]
    exact (isSound_numbered loopless none).make_eq_ok

end Problem

end Spanning

end CuttingPlanes
