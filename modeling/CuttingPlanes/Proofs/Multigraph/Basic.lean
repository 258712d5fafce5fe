import Mathlib.Combinatorics.SimpleGraph.Acyclic

/-! Graphs in which several edges may join the same nodes, and how many edges reach all nodes. -/

namespace CuttingPlanes

/-- A graph in which several edges may join the same two nodes. -/
structure Multigraph (V E : Type) where
  left : E → V
  right : E → V
  apart : ∀ edge, left edge ≠ right edge

namespace Multigraph

variable {V E : Type} [DecidableEq V] (graph : Multigraph V E)

/-- The two ends of an edge, in no order. -/
def ends (edge : E) : Sym2 V := s(graph.left edge, graph.right edge)

/-- The edges with both ends in a set of nodes. -/
def inner [Fintype E] (nodes : Finset V) : Finset E :=
  {edge | graph.left edge ∈ nodes ∧ graph.right edge ∈ nodes}

/-- Which nodes some edges join. -/
def joined (edges : Finset E) : SimpleGraph V :=
  SimpleGraph.fromEdgeSet (edges.image graph.ends : Finset (Sym2 V))

/-- Some edges join every node to every other one, with none to spare. -/
structure IsSpanningTree [Fintype V] (edges : Finset E) : Prop where
  isTree : (graph.joined edges).IsTree
  card_add_one : edges.card + 1 = Fintype.card V

variable {graph}

@[simp] theorem mem_inner [Fintype E] {nodes : Finset V} {edge : E} :
    edge ∈ graph.inner nodes ↔ graph.left edge ∈ nodes ∧ graph.right edge ∈ nodes := by
  simp [inner]

/-- No edge fits into a single node. -/
theorem inner_eq_empty [Fintype E] {nodes : Finset V} (few : nodes.card ≤ 1) :
    graph.inner nodes = ∅ := by
  -- Two members of a set with at most one are equal, and the ends of an edge are not.
  refine Finset.eq_empty_of_forall_notMem fun edge member => ?_
  obtain ⟨left, right⟩ := mem_inner.1 member
  exact graph.apart edge (Finset.card_le_one.1 few _ left _ right)

/-- The joined pairs are the ends of the edges. -/
@[simp] theorem edgeSet_joined (edges : Finset E) :
    (graph.joined edges).edgeSet = ((edges.image graph.ends : Finset (Sym2 V)) : Set (Sym2 V)) := by
  -- Only pairs of a node with itself could be lost, and no edge has such ends.
  ext pair
  simp only [joined, SimpleGraph.edgeSet_fromEdgeSet, Set.mem_sdiff, Finset.mem_coe,
    and_iff_left_iff_imp]
  rintro member loop
  obtain ⟨edge, -, rfl⟩ := Finset.mem_image.1 member
  exact graph.apart edge (Sym2.mk_isDiag_iff.1 loop)

theorem joined_adj {edges : Finset E} {first second : V} :
    (graph.joined edges).Adj first second ↔ ∃ edge ∈ edges, graph.ends edge = s(first, second) := by
  rw [← SimpleGraph.mem_edgeSet, edgeSet_joined]
  simp

/-- An edge joins its own ends. -/
theorem adj_ends {edges : Finset E} {edge : E} (member : edge ∈ edges) :
    (graph.joined edges).Adj (graph.left edge) (graph.right edge) :=
  joined_adj.2 ⟨edge, member, rfl⟩

/-- More edges join more nodes. -/
theorem joined_mono {few many : Finset E} (included : few ⊆ many) :
    graph.joined few ≤ graph.joined many :=
  SimpleGraph.fromEdgeSet_mono (Finset.coe_subset.2 (Finset.image_subset_image included))

/-- One edge more joins one pair more. -/
theorem joined_insert [DecidableEq E] (edge : E) (edges : Finset E) :
    graph.joined (insert edge edges) =
      graph.joined edges ⊔ SimpleGraph.edge (graph.left edge) (graph.right edge) := by
  -- Both sides join the pairs of a union.
  simp only [joined, SimpleGraph.edge, Finset.image_insert, Finset.coe_insert,
    ← SimpleGraph.fromEdgeSet_union]
  rw [Set.union_comm, Set.insert_eq]
  rfl

/-- There are at most as many joined pairs as edges. -/
theorem card_edgeSet_joined_le (edges : Finset E) :
    Nat.card (graph.joined edges).edgeSet ≤ edges.card := by
  -- Parallel edges share their pair, so that pairs are an image of the edges.
  rw [edgeSet_joined]
  simpa using Finset.card_image_le

/-- Edges with different ends join as many pairs as there are edges. -/
theorem card_edgeSet_joined {edges : Finset E} (simple : Set.InjOn graph.ends edges) :
    Nat.card (graph.joined edges).edgeSet = edges.card := by
  rw [edgeSet_joined]
  simpa using Finset.card_image_of_injOn simple

/-- Whatever a walk leads out of a set of nodes, one of the set reaches without its inner edges. -/
theorem exists_reachable_of_mem [Fintype E] [DecidableEq E] {edges : Finset E} {nodes : Finset V}
    {start node : V} (member : start ∈ nodes)
    (reached : (graph.joined edges).Reachable start node) :
    ∃ root ∈ nodes, (graph.joined (edges \ graph.inner nodes)).Reachable root node := by
  rw [SimpleGraph.reachable_iff_reflTransGen] at reached
  -- Every step that stays inside the set may start over from where it arrives.
  induction reached with
  | refl => exact ⟨start, member, SimpleGraph.Reachable.refl _⟩
  | @tail before after _ step ih =>
    obtain ⟨root, rooted, reach⟩ := ih
    obtain ⟨edge, among, same⟩ := joined_adj.1 step
    by_cases within : edge ∈ graph.inner nodes
    · -- An edge has its ends in either order, and both are in the set.
      have arrived : after ∈ nodes := by
        obtain ⟨left, right⟩ := mem_inner.1 within
        rcases Sym2.eq_iff.1 same with ⟨-, rfl⟩ | ⟨rfl, -⟩
        · exact right
        · exact left
      exact ⟨after, arrived, SimpleGraph.Reachable.refl _⟩
    · have kept : (graph.joined (edges \ graph.inner nodes)).Adj before after :=
        joined_adj.2 ⟨edge, Finset.mem_sdiff.2 ⟨among, within⟩, same⟩
      exact ⟨root, rooted, reach.trans kept.reachable⟩

/-- The ends of some edges and a star that leads from one of some nodes to the others. -/
def starred (graph : Multigraph V E) (edges : Finset E) (centre : V) (roots : Finset V) :
    Finset (Sym2 V) :=
  edges.image graph.ends ∪ (roots.erase centre).image fun root => s(centre, root)

/-- A star over a set of nodes has one line less than the set has members. -/
theorem card_starred_lt {edges : Finset E} {centre : V} {roots : Finset V}
    (central : centre ∈ roots) :
    (graph.starred edges centre roots).card < edges.card + roots.card := by
  -- The centre has no ray to itself, which is the one that is saved.
  have united : (graph.starred edges centre roots).card ≤ _ := Finset.card_union_le _ _
  have lines : (edges.image graph.ends).card ≤ edges.card := Finset.card_image_le
  have rays : ((roots.erase centre).image fun root => s(centre, root)).card ≤
      (roots.erase centre).card := Finset.card_image_le
  have fewer := Finset.card_erase_lt_of_mem central
  omega

/-- Nodes that are reached from some roots are reached from one of them over a star. -/
theorem reachable_starred {edges : Finset E} {centre node root : V} {roots : Finset V}
    (rooted : root ∈ roots) (reached : (graph.joined edges).Reachable root node) :
    (SimpleGraph.fromEdgeSet (graph.starred edges centre roots : Set (Sym2 V))).Reachable
      centre node := by
  -- The star leads to the root, and all the edges are still there.
  have below : graph.joined edges ≤
      SimpleGraph.fromEdgeSet (graph.starred edges centre roots : Set (Sym2 V)) :=
    SimpleGraph.fromEdgeSet_mono (Finset.coe_subset.2 Finset.subset_union_left)
  refine SimpleGraph.Reachable.trans ?_ (reached.mono below)
  by_cases same : root = centre
  · rw [same]
  · refine SimpleGraph.Adj.reachable ((SimpleGraph.fromEdgeSet_adj _).2 ⟨?_, Ne.symm same⟩)
    have ray : s(centre, root) ∈ (roots.erase centre).image fun root => s(centre, root) :=
      Finset.mem_image.2 ⟨root, Finset.mem_erase.2 ⟨same, rooted⟩, rfl⟩
    exact Finset.mem_coe.2 (Finset.mem_union_right _ ray)

variable [Fintype V]

/-- Reaching all nodes from some of them takes an edge for each of the others. -/
theorem card_le_of_reached {edges : Finset E} {roots : Finset V} (nonempty : roots.Nonempty)
    (reached : ∀ node, ∃ root ∈ roots, (graph.joined edges).Reachable root node) :
    Fintype.card V ≤ edges.card + roots.card := by
  obtain ⟨centre, central⟩ := nonempty
  -- With a star over the roots the graph is connected, so it has a line for all nodes but one.
  let whole : SimpleGraph V :=
    SimpleGraph.fromEdgeSet (graph.starred edges centre roots : Set (Sym2 V))
  have spread : ∀ node, whole.Reachable centre node := by
    intro node
    obtain ⟨root, rooted, reach⟩ := reached node
    exact reachable_starred rooted reach
  have : Nonempty V := ⟨centre⟩
  have connected : whole.Connected :=
    SimpleGraph.Connected.mk fun first second => (spread first).symm.trans (spread second)
  have enough := connected.card_vert_le_card_edgeSet_add_one
  have within : whole.edgeSet ⊆ (graph.starred edges centre roots : Set (Sym2 V)) := by
    simp only [whole, SimpleGraph.edgeSet_fromEdgeSet]
    exact Set.sdiff_subset
  -- Every line of the graph is one of the star or of the edges.
  have few : Nat.card whole.edgeSet ≤ (graph.starred edges centre roots).card := by
    simpa using Nat.card_mono (Finset.finite_toSet _) within
  have fewer : (graph.starred edges centre roots).card < edges.card + roots.card :=
    card_starred_lt central
  rw [Nat.card_eq_fintype_card] at enough
  omega

/-- As many edges as a tree has are a tree when they connect all nodes. -/
theorem isSpanningTree_of_connected {edges : Finset E} (connected : (graph.joined edges).Connected)
    (card_add_one : edges.card + 1 = Fintype.card V) : graph.IsSpanningTree edges := by
  refine ⟨SimpleGraph.isTree_iff_connected_and_card.2 ⟨connected, ?_⟩, card_add_one⟩
  -- A connected graph has no fewer joined pairs, and there are no more of them than edges.
  have least := connected.card_vert_le_card_edgeSet_add_one
  have most : Nat.card (graph.joined edges).edgeSet ≤ edges.card := card_edgeSet_joined_le edges
  have nodes : Nat.card V = Fintype.card V := Nat.card_eq_fintype_card
  omega

/-- Inside a set of nodes a tree has fewer edges than the set has nodes. -/
theorem IsSpanningTree.card_inner_lt [Fintype E] [DecidableEq E] {tree : Finset E}
    (spanning : graph.IsSpanningTree tree) {nodes : Finset V} (nonempty : nodes.Nonempty) :
    (tree ∩ graph.inner nodes).card + 1 ≤ nodes.card := by
  obtain ⟨start, member⟩ := nonempty
  -- The edges that are not inside are needed for the nodes outside.
  have reached : ∀ node, ∃ root ∈ nodes,
      (graph.joined (tree \ graph.inner nodes)).Reachable root node := fun node =>
    exists_reachable_of_mem member (spanning.isTree.connected.preconnected start node)
  have outside := card_le_of_reached ⟨start, member⟩ reached
  -- Inside and outside together are all the edges of the tree.
  have split := Finset.card_inter_add_card_sdiff tree (graph.inner nodes)
  have whole := spanning.card_add_one
  omega

end Multigraph

end CuttingPlanes
