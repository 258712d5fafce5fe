import CuttingPlanes.Proofs.Multigraph.Polytope
import Mathlib.Algebra.BigOperators.Field
import Mathlib.Tactic.Positivity

/-!
Forests grown from light edges to heavy ones, and how much lighter than the grown tree a point of
the subtour polytope can be.
-/

namespace CuttingPlanes.Multigraph

section Parts

variable {V : Type} [Fintype V]

/-- The nodes of one part of a graph. -/
noncomputable def partOf (connections : SimpleGraph V) (part : connections.ConnectedComponent) :
    Finset V := by
  classical exact {node | connections.connectedComponentMk node = part}

theorem mem_partOf {connections : SimpleGraph V} {part : connections.ConnectedComponent}
    {node : V} : node ∈ partOf connections part ↔ connections.connectedComponentMk node = part := by
  simp [partOf]

theorem partOf_nonempty {connections : SimpleGraph V} (part : connections.ConnectedComponent) :
    (partOf connections part).Nonempty := by
  obtain ⟨node, rfl⟩ := part.exists_rep
  exact ⟨node, mem_partOf.2 rfl⟩

/-- Every node belongs to one part. -/
theorem sum_card_partOf (connections : SimpleGraph V) [Fintype connections.ConnectedComponent] :
    ∑ part, (partOf connections part).card = Fintype.card V := by
  classical
  -- The nodes are counted part by part.
  rw [← Finset.card_univ, Finset.card_eq_sum_card_fiberwise fun node _ =>
    Finset.mem_coe.2 (Finset.mem_univ (connections.connectedComponentMk node))]
  exact Finset.sum_congr rfl fun part _ => by simp [partOf]

/-- No part of a broken graph holds all nodes. -/
theorem card_partOf_lt {connections : SimpleGraph V} (broken : ¬connections.Preconnected)
    (part : connections.ConnectedComponent) : (partOf connections part).card < Fintype.card V := by
  by_contra most
  -- A part that holds all nodes connects any two of them.
  have all := (Finset.card_eq_iff_eq_univ _).1
    (Nat.le_antisymm (Finset.card_le_univ _) (Nat.not_lt.1 most))
  refine broken fun first second => SimpleGraph.ConnectedComponent.exact ?_
  have member : ∀ node, connections.connectedComponentMk node = part := fun node =>
    mem_partOf.1 (all ▸ Finset.mem_univ node)
  rw [member first, member second]

end Parts

variable {V E : Type} [DecidableEq V] {graph : Multigraph V E} {slack : ℚ} {point : E → ℚ}

/-- Some edges of a set connect without a cycle whatever the whole set connects. -/
structure Spans (graph : Multigraph V E) (forest edges : Finset E) : Prop where
  isAcyclic : (graph.joined forest).IsAcyclic
  simple : Set.InjOn graph.ends forest
  reaches : ∀ edge ∈ edges, (graph.joined forest).Reachable (graph.left edge) (graph.right edge)

/-- Nothing is needed to span no edge. -/
theorem Spans.empty (graph : Multigraph V E) : graph.Spans ∅ ∅ :=
  ⟨by simp [joined], by simp, by simp⟩

/-- An edge between connected nodes is spanned already. -/
theorem Spans.skip [DecidableEq E] {forest edges : Finset E} (spans : graph.Spans forest edges)
    {edge : E} (reached : (graph.joined forest).Reachable (graph.left edge) (graph.right edge)) :
    graph.Spans forest (insert edge edges) :=
  { spans with reaches := (Finset.forall_mem_insert _ _ _).2 ⟨reached, spans.reaches⟩ }

/-- An edge between two parts may be added without closing a cycle. -/
theorem Spans.take [DecidableEq E] {forest edges : Finset E} (spans : graph.Spans forest edges)
    {edge : E} (unreached : ¬(graph.joined forest).Reachable (graph.left edge) (graph.right edge)) :
    graph.Spans (insert edge forest) (insert edge edges) where
  isAcyclic := by
    rw [joined_insert]
    exact spans.isAcyclic.sup_edge_of_not_reachable unreached
  simple := by
    rw [Finset.coe_insert, Set.injOn_insert]
    · refine ⟨spans.simple, fun ⟨other, member, same⟩ => unreached ?_⟩
      exact (joined_adj.2 ⟨other, member, same⟩).reachable
    · exact fun member => unreached (adj_ends member).reachable
  reaches := by
    -- What was reached before is still reached, and the new edge reaches its own ends.
    have grown : graph.joined forest ≤ graph.joined (insert edge forest) :=
      joined_mono (Finset.subset_insert edge forest)
    refine (Finset.forall_mem_insert _ _ _).2 ⟨?_, fun other member => ?_⟩
    · exact (adj_ends (Finset.mem_insert_self edge forest)).reachable
    · exact (spans.reaches other member).mono grown

/-- Some of any edges connect the same nodes without a cycle. -/
theorem exists_spans [DecidableEq E] (graph : Multigraph V E) (edges : Finset E) :
    ∃ forest, graph.Spans forest edges := by
  induction edges using Finset.induction_on with
  | empty => exact ⟨∅, .empty graph⟩
  | insert edge edges _ ih =>
    obtain ⟨forest, spans⟩ := ih
    -- An edge is taken just where the forest does not reach already.
    by_cases reached : (graph.joined forest).Reachable (graph.left edge) (graph.right edge)
    · exact ⟨forest, spans.skip reached⟩
    · exact ⟨insert edge forest, spans.take reached⟩

/-- How far below some height the edges of a point lie, counted against those of a forest. -/
def Undercuts (cost point : E → ℚ) (forest edges : Finset E) (bound height : ℚ) : Prop :=
  ∑ edge ∈ edges, (height - cost edge) * point edge ≤
    ∑ edge ∈ forest, (height - cost edge) + bound

/-- A greater height raises both sides by as much for every edge that they count. -/
theorem Undercuts.raise {cost : E → ℚ} {forest edges : Finset E} {bound step low high : ℚ}
    (held : Undercuts cost point forest edges bound low) (above : low ≤ high)
    (room : ∑ edge ∈ edges, point edge ≤ forest.card + step) :
    Undercuts cost point forest edges (bound + step * (high - low)) high := by
  -- Raising the height adds the same amount once for each unit of an edge.
  have left : ∑ edge ∈ edges, (high - cost edge) * point edge =
      (high - low) * ∑ edge ∈ edges, point edge +
        ∑ edge ∈ edges, (low - cost edge) * point edge := by
    rw [Finset.mul_sum, ← Finset.sum_add_distrib]
    exact Finset.sum_congr rfl fun edge _ => by ring
  have right : ∑ edge ∈ forest, (high - cost edge) =
      (high - low) * forest.card + ∑ edge ∈ forest, (low - cost edge) := by
    rw [mul_comm, ← nsmul_eq_mul, ← Finset.sum_const, ← Finset.sum_add_distrib]
    exact Finset.sum_congr rfl fun edge _ => by ring
  -- The amount on the left exceeds that on the right by a step at most.
  have room := mul_le_mul_of_nonneg_left room (sub_nonneg.2 above)
  unfold Undercuts at held ⊢
  rw [left, right]
  linarith

variable [Fintype V]

/-- A graph has no more nodes than edges and parts. -/
theorem card_le_card_add_card_parts [Nonempty V] (edges : Finset E)
    [Fintype (graph.joined edges).ConnectedComponent] :
    Fintype.card V ≤ edges.card + Fintype.card (graph.joined edges).ConnectedComponent := by
  classical
  -- One node of every part reaches all the others.
  let roots : Finset V := Finset.univ.image fun part : (graph.joined edges).ConnectedComponent =>
    part.out
  have reached : ∀ node, ∃ root ∈ roots, (graph.joined edges).Reachable root node := by
    intro node
    refine ⟨((graph.joined edges).connectedComponentMk node).out, ?_, ?_⟩
    · exact Finset.mem_image_of_mem _ (Finset.mem_univ _)
    · exact SimpleGraph.ConnectedComponent.exact (Quot.out_eq _)
  have nonempty : roots.Nonempty := by
    obtain ⟨node⟩ := ‹Nonempty V›
    exact (reached node).imp fun root found => found.1
  calc Fintype.card V ≤ edges.card + roots.card := card_le_of_reached nonempty reached
    _ ≤ edges.card + Fintype.card (graph.joined edges).ConnectedComponent := by
      gcongr
      exact Finset.card_image_le

variable [Fintype E]

/-- A point has on a part at most as much as a tree, and half the slack for every node. -/
theorem IsSubtourPoint.sum_inner_partOf_le (keeps : graph.IsSubtourPoint slack point)
    (nonneg : 0 ≤ slack) {connections : SimpleGraph V} {part : connections.ConnectedComponent}
    (proper : (partOf connections part).card < Fintype.card V) :
    ∑ edge ∈ graph.inner (partOf connections part), point edge ≤
      (partOf connections part).card - 1 + slack * (partOf connections part).card / 2 := by
  have inhabited := partOf_nonempty part
  rcases Nat.lt_or_ge 1 (partOf connections part).card with several | single
  · -- Two nodes pay for one slack.
    have two : (2 : ℚ) ≤ (partOf connections part).card := by exact_mod_cast several
    have paid : slack * 2 ≤ slack * (partOf connections part).card :=
      mul_le_mul_of_nonneg_left two nonneg
    linarith [keeps.sum_inner_le nonneg inhabited proper]
  · have one : (partOf connections part).card = 1 := Nat.le_antisymm single inhabited.card_pos
    rw [inner_eq_empty single, one]
    simp only [Finset.sum_empty, Nat.cast_one, sub_self, zero_add, mul_one]
    positivity

/-- The edges within the parts of a graph are shared out to the parts. -/
theorem IsSubtourPoint.sum_le_sum_parts (keeps : graph.IsSubtourPoint slack point)
    {connections : SimpleGraph V} [Fintype connections.ConnectedComponent] {edges : Finset E}
    (reaches : ∀ edge ∈ edges, connections.Reachable (graph.left edge) (graph.right edge)) :
    ∑ edge ∈ edges, point edge ≤
      ∑ part, ∑ edge ∈ graph.inner (partOf connections part), point edge := by
  classical
  rw [← Finset.sum_fiberwise edges fun edge => connections.connectedComponentMk (graph.left edge)]
  refine Finset.sum_le_sum fun part _ => ?_
  -- An edge whose left end is in a part has its right end there too.
  refine Finset.sum_le_sum_of_subset_of_nonneg (fun edge member => ?_) fun edge _ _ =>
    keeps.nonneg edge
  obtain ⟨among, left⟩ := Finset.mem_filter.1 member
  have right := SimpleGraph.ConnectedComponent.sound (reaches edge among).symm
  exact mem_inner.2 ⟨mem_partOf.2 left, mem_partOf.2 (right.trans left)⟩

/-- Edges that a set reaches hold at most its count, and half the slack for every node. -/
theorem IsSubtourPoint.sum_le_card_add [Nonempty V] (keeps : graph.IsSubtourPoint slack point)
    (nonneg : 0 ≤ slack) {forest edges : Finset E}
    (reaches : ∀ edge ∈ edges,
      (graph.joined forest).Reachable (graph.left edge) (graph.right edge)) :
    ∑ edge ∈ edges, point edge ≤ forest.card + slack * Fintype.card V / 2 := by
  classical
  by_cases connected : (graph.joined forest).Preconnected
  · -- All edges together hold no more than a tree, without any slack.
    obtain ⟨root⟩ := ‹Nonempty V›
    have reached : ∀ node, ∃ root' ∈ ({root} : Finset V),
        (graph.joined forest).Reachable root' node := fun node =>
      ⟨root, Finset.mem_singleton_self root, connected root node⟩
    have enough := card_le_of_reached (Finset.singleton_nonempty root) reached
    have enough : (Fintype.card V : ℚ) ≤ forest.card + 1 := by exact_mod_cast enough
    have most : ∑ edge ∈ edges, point edge ≤ ∑ edge, point edge :=
      Finset.sum_le_univ_sum_of_nonneg keeps.nonneg
    have paid : 0 ≤ slack * Fintype.card V / 2 := by positivity
    linarith [keeps.total]
  · -- Otherwise every part keeps its own cut.
    have : Fintype (graph.joined forest).ConnectedComponent := Fintype.ofFinite _
    have parts : Fintype.card V ≤
        forest.card + Fintype.card (graph.joined forest).ConnectedComponent :=
      card_le_card_add_card_parts forest
    have parts : (Fintype.card V : ℚ) ≤
        forest.card + Fintype.card (graph.joined forest).ConnectedComponent := by
      exact_mod_cast parts
    have nodes : ∑ part, ((partOf (graph.joined forest) part).card : ℚ) = Fintype.card V := by
      exact_mod_cast sum_card_partOf (graph.joined forest)
    calc ∑ edge ∈ edges, point edge
        ≤ ∑ part, ∑ edge ∈ graph.inner (partOf (graph.joined forest) part), point edge :=
          keeps.sum_le_sum_parts reaches
      _ ≤ ∑ part, ((partOf (graph.joined forest) part).card - 1 +
            slack * (partOf (graph.joined forest) part).card / 2) :=
          Finset.sum_le_sum fun part _ =>
            keeps.sum_inner_partOf_le nonneg (card_partOf_lt connected part)
      _ = Fintype.card V - Fintype.card (graph.joined forest).ConnectedComponent +
            slack * Fintype.card V / 2 := by
          rw [Finset.sum_add_distrib, Finset.sum_sub_distrib, ← Finset.sum_div, ← Finset.mul_sum,
            nodes]
          simp
      _ ≤ forest.card + slack * Fintype.card V / 2 := by linarith

/-- What spans all edges of a connected graph is a spanning tree. -/
theorem Spans.isSpanningTree {forest : Finset E} (spans : graph.Spans forest Finset.univ)
    (connected : (graph.joined Finset.univ).Connected) : graph.IsSpanningTree forest := by
  have kept : (graph.joined forest).Connected := by
    have := connected.nonempty
    refine SimpleGraph.Connected.mk fun first second => ?_
    have reached := connected.preconnected first second
    rw [SimpleGraph.reachable_iff_reflTransGen] at reached
    -- Every step of a walk is an edge, and the forest reaches from one end of it to the other.
    induction reached with
    | refl => rfl
    | tail _ step ih =>
      obtain ⟨edge, among, same⟩ := joined_adj.1 step
      refine ih.trans ?_
      rcases Sym2.eq_iff.1 same with ⟨rfl, rfl⟩ | ⟨rfl, rfl⟩
      · exact spans.reaches edge among
      · exact (spans.reaches edge among).symm
  -- No cycle was closed, and no two edges of the forest have the same ends.
  have tree : (graph.joined forest).IsTree := ⟨kept, spans.isAcyclic⟩
  have counted := (SimpleGraph.isTree_iff_connected_and_card.1 tree).2
  rw [card_edgeSet_joined spans.simple, Nat.card_eq_fintype_card] at counted
  exact ⟨tree, counted⟩

/-- A connected graph has a spanning tree. -/
theorem exists_isSpanningTree [DecidableEq E] (connected : (graph.joined Finset.univ).Connected) :
    ∃ tree, graph.IsSpanningTree tree := by
  have := connected.nonempty
  -- What spans all edges connects what they connect.
  obtain ⟨forest, spans⟩ := exists_spans graph Finset.univ
  exact ⟨forest, spans.isSpanningTree connected⟩

/-- From light edges to heavy ones a forest is grown that no point undercuts by much. -/
theorem exists_spans_undercuts [DecidableEq E] [Nonempty V]
    (keeps : graph.IsSubtourPoint slack point) (nonneg : 0 ≤ slack) {cost : E → ℚ} {least : ℚ}
    (bounded : ∀ edge, least ≤ cost edge) (edges : Finset E) :
    ∃ forest, graph.Spans forest edges ∧
      ∀ most, least ≤ most → (∀ edge ∈ edges, cost edge ≤ most) →
        Undercuts cost point forest edges (slack * Fintype.card V / 2 * (most - least)) most := by
  induction edges using Finset.induction_on_max_value cost with
  | empty =>
    refine ⟨∅, .empty graph, fun most above _ => ?_⟩
    have := mul_nonneg (by positivity : 0 ≤ slack * Fintype.card V / 2) (sub_nonneg.2 above)
    simpa [Undercuts] using this
  | insert edge edges fresh lighter ih =>
    obtain ⟨forest, spans, held⟩ := ih
    -- At the height of the new edge it counts for nothing, whether it is taken or not.
    have level := held (cost edge) (bounded edge) lighter
    have finish : ∀ grown, graph.Spans grown (insert edge edges) →
        Undercuts cost point grown (insert edge edges)
          (slack * Fintype.card V / 2 * (cost edge - least)) (cost edge) →
        ∃ forest, graph.Spans forest (insert edge edges) ∧
          ∀ most, least ≤ most → (∀ other ∈ insert edge edges, cost other ≤ most) →
            Undercuts cost point forest (insert edge edges)
              (slack * Fintype.card V / 2 * (most - least)) most := by
      intro grown spans held
      refine ⟨grown, spans, fun most _ heavy => ?_⟩
      have raised := held.raise (heavy edge (Finset.mem_insert_self _ _))
        (keeps.sum_le_card_add nonneg spans.reaches)
      -- What is paid up to the new edge and from there on is paid for the whole way.
      have sum : slack * Fintype.card V / 2 * (cost edge - least) +
          slack * Fintype.card V / 2 * (most - cost edge) =
          slack * Fintype.card V / 2 * (most - least) := by ring
      rwa [sum] at raised
    by_cases reached : (graph.joined forest).Reachable (graph.left edge) (graph.right edge)
    · refine finish forest (spans.skip reached) ?_
      simpa [Undercuts, Finset.sum_insert fresh] using level
    · -- An edge of the forest would be reached over itself.
      have apart : edge ∉ forest := fun member => reached (adj_ends member).reachable
      refine finish (insert edge forest) (spans.take reached) ?_
      simpa [Undercuts, Finset.sum_insert fresh, Finset.sum_insert apart] using level

/-- A connected graph has a spanning tree that no point of the polytope undercuts by much. -/
theorem exists_isSpanningTree_sum_le [DecidableEq E] (keeps : graph.IsSubtourPoint slack point)
    (connected : (graph.joined Finset.univ).Connected) (nonneg : 0 ≤ slack) {cost : E → ℚ}
    {least most : ℚ} (ordered : least ≤ most) (above : ∀ edge, least ≤ cost edge)
    (below : ∀ edge, cost edge ≤ most) :
    ∃ tree, graph.IsSpanningTree tree ∧
      ∑ edge ∈ tree, cost edge - slack * Fintype.card V / 2 * (most - least) ≤
        ∑ edge, cost edge * point edge := by
  have := connected.nonempty
  obtain ⟨tree, spans, held⟩ := exists_spans_undercuts keeps nonneg above Finset.univ
  have spanning := spans.isSpanningTree connected
  refine ⟨tree, spanning, ?_⟩
  -- Both sides count equally many edges, so the height drops out.
  have held := held most ordered fun edge _ => below edge
  have count : (tree.card : ℚ) = Fintype.card V - 1 := by
    rw [← spanning.card_add_one]
    push_cast
    ring
  simp only [Undercuts, sub_mul, Finset.sum_sub_distrib, ← Finset.mul_sum, keeps.total,
    Finset.sum_const, nsmul_eq_mul, count] at held
  linarith

end CuttingPlanes.Multigraph
