import CuttingPlanes.Proofs.Multigraph.Basic
import Mathlib.Algebra.BigOperators.Ring.Finset
import Mathlib.Algebra.Order.BigOperators.Ring.Finset
import Mathlib.Algebra.Order.Ring.Rat
import Mathlib.Tactic.Linarith

/-! Points that keep the cuts of all sets of nodes, up to a slack, and the trees among them. -/

namespace CuttingPlanes.Multigraph

variable {V E : Type} [DecidableEq V] [Fintype V]

/-- The points between zero and one that keep every cut up to a slack and have a tree's total. -/
structure IsSubtourPoint [Fintype E] (graph : Multigraph V E) (slack : ℚ) (point : E → ℚ) :
    Prop where
  nonneg : ∀ edge, 0 ≤ point edge
  le_one : ∀ edge, point edge ≤ 1
  total : ∑ edge, point edge = Fintype.card V - 1
  cut : ∀ nodes : Finset V, 2 ≤ nodes.card → nodes.card < Fintype.card V →
    ∑ edge ∈ graph.inner nodes, point edge ≤ nodes.card - 1 + slack

/-- The point that takes the edges of a set and no others. -/
def indicator [DecidableEq E] (edges : Finset E) : E → ℚ :=
  fun edge => if edge ∈ edges then 1 else 0

variable {graph : Multigraph V E}

/-- The total over a set of edges counts those that are taken. -/
theorem sum_indicator [DecidableEq E] (edges among : Finset E) :
    ∑ edge ∈ among, indicator edges edge = ((edges ∩ among).card : ℚ) := by
  simp [indicator, Finset.inter_comm]

/-- Edges that do not connect all nodes leave a set of nodes apart from the others. -/
theorem exists_apart_of_not_connected [Nonempty V] {edges : Finset E}
    (broken : ¬(graph.joined edges).Connected) :
    ∃ nodes : Finset V, nodes.Nonempty ∧ nodesᶜ.Nonempty ∧
      ∀ edge ∈ edges, graph.left edge ∈ nodes ↔ graph.right edge ∈ nodes := by
  classical
  -- The nodes reached from one end of a gap are apart from the other end.
  have gap : ∃ first second, ¬(graph.joined edges).Reachable first second := by
    by_contra none
    push Not at none
    exact broken (SimpleGraph.Connected.mk none)
  obtain ⟨first, second, unreached⟩ := gap
  refine ⟨Finset.univ.filter ((graph.joined edges).Reachable first), ⟨first, ?_⟩, ⟨second, ?_⟩, ?_⟩
  · simp
  · simpa using unreached
  · intro edge member
    have step : (graph.joined edges).Reachable (graph.left edge) (graph.right edge) :=
      (adj_ends member).reachable
    simp only [Finset.mem_filter, Finset.mem_univ, true_and]
    exact ⟨fun reached => reached.trans step, fun reached => reached.trans step.symm⟩

variable [Fintype E]

/-- A cost counts once for every edge that is taken. -/
theorem sum_mul_indicator [DecidableEq E] (cost : E → ℚ) (edges : Finset E) :
    ∑ edge, cost edge * indicator edges edge = ∑ edge ∈ edges, cost edge := by
  simp [indicator]

/-- A spanning tree keeps every cut. -/
theorem IsSpanningTree.isSubtourPoint [DecidableEq E] {tree : Finset E}
    (spanning : graph.IsSpanningTree tree) : graph.IsSubtourPoint 0 (indicator tree) where
  nonneg edge := by unfold indicator; split <;> norm_num
  le_one edge := by unfold indicator; split <;> norm_num
  total := by
    -- The total counts the edges, and a tree has one edge less than nodes.
    rw [sum_indicator, Finset.inter_univ, ← spanning.card_add_one]
    push_cast
    ring
  cut nodes several _ := by
    -- The part of a tree inside the nodes has no cycle.
    have few := spanning.card_inner_lt (Finset.card_pos.1 (by omega : 0 < nodes.card))
    have few : ((tree ∩ graph.inner nodes).card : ℚ) + 1 ≤ nodes.card := by exact_mod_cast few
    rw [sum_indicator]
    linarith

/-- A larger slack admits more points. -/
theorem IsSubtourPoint.mono {small large : ℚ} {point : E → ℚ}
    (keeps : graph.IsSubtourPoint small point) (le : small ≤ large) :
    graph.IsSubtourPoint large point :=
  { keeps with cut := fun nodes several proper => by linarith [keeps.cut nodes several proper] }

section Cuts

variable {slack : ℚ} {point : E → ℚ}

/-- Every part of the nodes keeps its cut, a single node too. -/
theorem IsSubtourPoint.sum_inner_le (keeps : graph.IsSubtourPoint slack point) (nonneg : 0 ≤ slack)
    {nodes : Finset V} (nonempty : nodes.Nonempty) (proper : nodes.card < Fintype.card V) :
    ∑ edge ∈ graph.inner nodes, point edge ≤ nodes.card - 1 + slack := by
  rcases Nat.lt_or_ge 1 nodes.card with several | single
  · exact keeps.cut nodes several proper
  · -- No edge fits into a single node, and a node alone has room for none.
    have one : nodes.card = 1 := Nat.le_antisymm single (Finset.card_pos.2 nonempty)
    rw [inner_eq_empty single, Finset.sum_empty, one]
    simpa using nonneg

/-- A point that uses no edge across a set of nodes is split by the set. -/
theorem sum_eq_inner_add_inner_compl {nodes : Finset V}
    (apart : ∀ edge, point edge ≠ 0 → (graph.left edge ∈ nodes ↔ graph.right edge ∈ nodes)) :
    ∑ edge, point edge =
      ∑ edge ∈ graph.inner nodes, point edge + ∑ edge ∈ graph.inner nodesᶜ, point edge := by
  classical
  simp only [inner, Finset.sum_filter, ← Finset.sum_add_distrib]
  refine Finset.sum_congr rfl fun edge _ => ?_
  -- An edge that counts has its ends on one side, and then on no other.
  by_cases zero : point edge = 0
  · simp [zero]
  · have same := apart edge zero
    by_cases left : graph.left edge ∈ nodes
    · simp [left, same.1 left]
    · have right : graph.right edge ∉ nodes := fun right => left (same.2 right)
      simp [left, right]

/-- The edges that such a point uses connect all nodes, if the slack is below a half. -/
theorem IsSubtourPoint.connected_support [Nonempty V] (keeps : graph.IsSubtourPoint slack point)
    (nonneg : 0 ≤ slack) (small : slack < 1 / 2) :
    (graph.joined (Finset.univ.filter (point · ≠ 0))).Connected := by
  by_contra broken
  -- Two parts without a joining edge have room for two edges less than nodes, and twice the slack.
  obtain ⟨nodes, inhabited, others, apart⟩ := exists_apart_of_not_connected broken
  have split : nodes.card + nodesᶜ.card = Fintype.card V := Finset.card_add_card_compl nodes
  -- Either side keeps its own cut, and the total leaves one edge to join them.
  have first := keeps.sum_inner_le nonneg inhabited (by have := others.card_pos; omega)
  have second := keeps.sum_inner_le nonneg others (by have := inhabited.card_pos; omega)
  have whole : ∑ edge, point edge = _ := sum_eq_inner_add_inner_compl fun edge used =>
    apart edge (Finset.mem_filter.2 ⟨Finset.mem_univ edge, used⟩)
  have split : (nodes.card : ℚ) + nodesᶜ.card = Fintype.card V := by exact_mod_cast split
  linarith [keeps.total]

/-- A graph has such a point only if it is connected. -/
theorem IsSubtourPoint.connected [Nonempty V] (keeps : graph.IsSubtourPoint slack point)
    (nonneg : 0 ≤ slack) (small : slack < 1 / 2) : (graph.joined Finset.univ).Connected :=
  (keeps.connected_support nonneg small).mono (joined_mono (Finset.filter_subset _ _))

/-- The edges that a whole point takes are a spanning tree. -/
theorem IsSubtourPoint.isSpanningTree [Nonempty V] (keeps : graph.IsSubtourPoint 0 point)
    (whole : ∀ edge, point edge = 0 ∨ point edge = 1) :
    graph.IsSpanningTree (Finset.univ.filter (point · = 1)) := by
  have support : Finset.univ.filter (point · ≠ 0) = Finset.univ.filter (point · = 1) := by
    refine Finset.filter_congr fun edge _ => ?_
    rcases whole edge with zero | one <;> simp [*]
  -- Where no part of an edge is used, the edges in use are the ones that are taken.
  have connected := keeps.connected_support le_rfl (by norm_num)
  rw [support] at connected
  refine isSpanningTree_of_connected connected ?_
  -- The total of a whole point counts the edges that it takes.
  have counted : ∑ edge, point edge = ((Finset.univ.filter (point · = 1)).card : ℚ) := by
    rw [Finset.card_filter, Nat.cast_sum]
    refine Finset.sum_congr rfl fun edge _ => ?_
    rcases whole edge with zero | one <;> simp [*]
  have sum : ((Finset.univ.filter (point · = 1)).card : ℚ) + 1 = Fintype.card V := by
    linarith [keeps.total]
  exact_mod_cast sum

end Cuts

end CuttingPlanes.Multigraph
