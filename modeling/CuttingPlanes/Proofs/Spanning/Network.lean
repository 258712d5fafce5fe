import CuttingPlanes.Proofs.Exact
import CuttingPlanes.Proofs.Multigraph.Polytope
import CuttingPlanes.Proofs.Spanning.Subset
import CuttingPlanes.Spanning.Problem

/-! Spanning-tree problems as graphs with costs, and their lightest trees. -/

namespace CuttingPlanes.Spanning.Problem

variable {L : Type}

/-- A problem that has passed its checks: nodes and labels agree, and edges join different nodes. -/
structure IsSound (problem : Problem ℚ Nat L) : Prop where
  positive : 0 < problem.size
  left_lt : ∀ edge ∈ problem.edges, edge.left < problem.size
  right_lt : ∀ edge ∈ problem.edges, edge.right < problem.size
  apart : ∀ edge ∈ problem.edges, edge.left ≠ edge.right
  labelled : problem.labels.nodes.length = problem.size

/-- An edge passes its check when it joins two different nodes. -/
theorem of_checkEdge {size left right : Nat} (passed : checkEdge size left right = .ok ()) :
    left < size ∧ right < size ∧ left ≠ right := by
  -- Every way to miss a condition is refused.
  by_cases first : left < size
  · by_cases second : right < size
    · refine ⟨first, second, fun same => ?_⟩
      simp [checkEdge, isNode, second, same, bind, Except.bind, throw, throwThe,
        MonadExceptOf.throw] at passed
    · simp [checkEdge, isNode, first, second, bind, Except.bind, throw, throwThe,
        MonadExceptOf.throw] at passed
  · simp [checkEdge, isNode, first, bind, Except.bind, pure, Except.pure, throw, throwThe,
      MonadExceptOf.throw] at passed

/-- All edges pass their checks when each of them does. -/
theorem of_forM_checkEdge {size : Nat} {edges : List (Edge Nat ℚ)}
    (passed : (edges.forM fun edge => checkEdge size edge.left edge.right) = .ok ()) :
    ∀ edge ∈ edges, edge.left < size ∧ edge.right < size ∧ edge.left ≠ edge.right := by
  induction edges with
  | nil => simp
  | cons edge rest ih =>
    -- The edges behind the first are looked at only when the first has passed.
    rw [List.forM_eq_forM, List.forM_cons] at passed
    cases checked : checkEdge size edge.left edge.right with
    | error fault => simp [checked, bind, Except.bind] at passed
    | ok done =>
      simp only [checked, bind, Except.bind] at passed
      exact List.forall_mem_cons.2 ⟨of_checkEdge checked, ih passed⟩

theorem of_checkSize {size : Nat} (passed : checkSize size = .ok ()) : 0 < size := by
  by_contra none
  obtain rfl := Nat.eq_zero_of_not_pos none
  simp [checkSize, bind, Except.bind, throw, throwThe, MonadExceptOf.throw] at passed

theorem of_checkLabels {size count : Nat} (passed : checkLabels size count = .ok ()) :
    count = size := by
  by_contra different
  simp [checkLabels, different] at passed

/-- A problem that is made is sound. -/
theorem isSound_of_make [NodeLabel L] {size : Nat} {edges : List (Edge Nat ℚ)}
    {labels : Option (List L)} {name : Datum} {problem : Problem ℚ Nat L}
    (made : make size edges labels name = .ok problem) : problem.IsSound := by
  unfold make at made
  cases sized : checkSize size with
  | error fault => simp [sized, bind, Except.bind] at made
  | ok done =>
  cases checked : edges.forM fun edge => checkEdge size edge.left edge.right with
  | error fault => simp [sized, checked, bind, Except.bind] at made
  | ok done =>
  -- Whichever labels are taken, there are as many of them as nodes.
  have labelled : ∃ listed : List L, checkLabels size listed.length = .ok () ∧
      problem = ⟨size, edges, .listed listed, name⟩ := by
    -- With labels at hand, only their count can still be refused.
    have closed : ∀ listed : List L, (do
        checkLabels size listed.length
        return (⟨size, edges, .listed listed, name⟩ : Problem ℚ Nat L)) = .ok problem →
        checkLabels size listed.length = .ok () ∧
          problem = ⟨size, edges, .listed listed, name⟩ := by
      intro listed made
      cases counted : checkLabels size listed.length with
      | error fault =>
        rw [counted] at made
        cases made
      | ok done =>
        rw [counted] at made
        cases made
        exact ⟨rfl, rfl⟩
    rw [sized, checked] at made
    cases labels with
    | some listed => exact ⟨listed, closed listed made⟩
    | none => exact ⟨_, closed _ made⟩
  obtain ⟨listed, counted, rfl⟩ := labelled
  -- The checks that have passed are what soundness asks for.
  have ends := of_forM_checkEdge checked
  exact ⟨of_checkSize sized, fun edge member => (ends edge member).1,
    fun edge member => (ends edge member).2.1, fun edge member => (ends edge member).2.2,
    of_checkLabels counted⟩

variable {problem : Problem ℚ Nat L}

/-- The graph of a problem; its edges are named by their positions. -/
def IsSound.network (sound : problem.IsSound) :
    Multigraph (Fin problem.size) (Fin problem.edges.length) where
  left position := ⟨(problem.edges.get position).left, sound.left_lt _ (List.getElem_mem _)⟩
  right position := ⟨(problem.edges.get position).right, sound.right_lt _ (List.getElem_mem _)⟩
  apart position same := sound.apart _ (List.getElem_mem position.isLt) (congrArg Fin.val same)

/-- A single node leaves no room for an edge. -/
theorem IsSound.edges_eq_nil (sound : problem.IsSound) (single : problem.size = 1) :
    problem.edges = [] := by
  refine List.eq_nil_iff_forall_not_mem.2 fun edge member => ?_
  -- Two different nodes do not fit below one.
  have left := sound.left_lt edge member
  have right := sound.right_lt edge member
  exact sound.apart edge member (by omega)

/-- The cost of the edge at a position. -/
def costAt (problem : Problem ℚ Nat L) (position : Fin problem.edges.length) : ℚ :=
  (problem.edges.get position).cost

/-- The total cost of the edges at some positions. -/
def weight (problem : Problem ℚ Nat L) (chosen : Finset (Fin problem.edges.length)) : ℚ :=
  ∑ position ∈ chosen, problem.costAt position

/-- The edges at some positions, in their order. -/
def edgesAt (problem : Problem ℚ Nat L) (chosen : Finset (Fin problem.edges.length)) :
    List (Edge Nat ℚ) :=
  ((List.finRange problem.edges.length).filter (· ∈ chosen)).map fun position =>
    problem.edges.get position

/-- A graph in which every node is reached from every other one. -/
def IsSound.IsConnected (sound : problem.IsSound) : Prop :=
  (sound.network.joined Finset.univ).Connected

/-- The least total cost of a spanning tree. -/
def IsSound.IsLeastWeight (sound : problem.IsSound) (least : ℚ) : Prop :=
  IsLeast {total | ∃ tree, sound.network.IsSpanningTree tree ∧ total = problem.weight tree} least

/-- How far the greatest cost of an edge is above the least one. -/
def spread (problem : Problem ℚ Nat L) : ℚ :=
  let costs := problem.edges.map Edge.cost
  costs.max?.getD 0 - costs.min?.getD 0

/-- All costs lie between two numbers that are as far apart as the spread. -/
theorem exists_bounds (problem : Problem ℚ Nat L) :
    ∃ low high : ℚ, low ≤ high ∧ (∀ edge, low ≤ problem.costAt edge) ∧
      (∀ edge, problem.costAt edge ≤ high) ∧ problem.spread = high - low := by
  -- Without edges both bounds are missing and count as zero.
  by_cases none : problem.edges = []
  · have empty : IsEmpty (Fin problem.edges.length) := by
      rw [none]
      exact Fin.isEmpty
    exact ⟨0, 0, le_rfl, fun edge => empty.elim edge, fun edge => empty.elim edge, by
      simp [spread, none]⟩
  · have some : problem.edges.map Edge.cost ≠ [] := by simpa using none
    obtain ⟨low, lowest⟩ := Option.isSome_iff_exists.1 (List.isSome_min?_of_ne_nil some)
    obtain ⟨high, highest⟩ := Option.isSome_iff_exists.1 (List.isSome_max?_of_ne_nil some)
    have above : ∀ cost ∈ problem.edges.map Edge.cost, low ≤ cost :=
      (List.le_min?_iff lowest).1 le_rfl
    have below : ∀ cost ∈ problem.edges.map Edge.cost, cost ≤ high :=
      (List.max?_le_iff highest).1 le_rfl
    have member : ∀ edge, problem.costAt edge ∈ problem.edges.map Edge.cost := fun edge =>
      List.mem_map_of_mem (List.getElem_mem edge.isLt)
    refine ⟨low, high, ?_, fun edge => above _ (member edge), fun edge => below _ (member edge), by
      simp [spread, lowest, highest]⟩
    obtain ⟨cost, listed⟩ := List.exists_mem_of_ne_nil _ some
    exact (above cost listed).trans (below cost listed)

/-- The nodes of a list as a set. -/
def nodeSet (size : Nat) (nodes : List Nat) : Finset (Fin size) :=
  Finset.univ.filter fun node => node.val ∈ nodes

/-- A set of nodes as a sorted list. -/
def nodeList {size : Nat} (nodes : Finset (Fin size)) : List Nat :=
  ((List.finRange size).filter (· ∈ nodes)).map Fin.val

@[simp] theorem nodeSet_nodeList {size : Nat} (nodes : Finset (Fin size)) :
    nodeSet size (nodeList nodes) = nodes := by
  ext node
  simp [nodeSet, nodeList, Fin.val_inj]

@[simp] theorem length_nodeList {size : Nat} (nodes : Finset (Fin size)) :
    (nodeList nodes).length = nodes.card := by
  -- No node is listed twice.
  rw [nodeList, List.length_map,
    ← List.toFinset_card_of_nodup ((List.nodup_finRange size).filter _)]
  congr 1
  ext node
  simp

/-- A set of nodes that is neither too small nor all of them is considered for a cut. -/
theorem isCutSet_nodeList {size : Nat} {nodes : Finset (Fin size)} (several : 2 ≤ nodes.card)
    (proper : nodes.card < size) : IsCutSet size (nodeList nodes) := by
  refine ⟨?_, by simpa, by simpa⟩
  -- The nodes in order are all numbers below the size.
  have all : (List.finRange size).map Fin.val = List.range size := List.map_coe_finRange_eq_range
  rw [← all]
  exact List.filter_sublist.map Fin.val

/-- A list that is considered for a cut has as many nodes as its set. -/
theorem card_nodeSet {size : Nat} {nodes : List Nat} (cut : IsCutSet size nodes) :
    (nodeSet size nodes).card = nodes.length := by
  -- As numbers, the nodes of the set are the members of the list.
  have same : (nodeSet size nodes).map Fin.valEmbedding = nodes.toFinset := by
    ext node
    simp only [nodeSet, Finset.mem_map, Finset.mem_filter, Finset.mem_univ, true_and,
      Fin.valEmbedding_apply, List.mem_toFinset]
    refine ⟨?_, fun member => ?_⟩
    · rintro ⟨place, member, rfl⟩
      exact member
    · exact ⟨⟨node, List.mem_range.1 (cut.sublist.subset member)⟩, member, rfl⟩
  rw [← Finset.card_map Fin.valEmbedding, same,
    List.toFinset_card_of_nodup (List.nodup_range.sublist cut.sublist)]

end CuttingPlanes.Spanning.Problem
