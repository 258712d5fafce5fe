import CuttingPlanes.Proofs.Relaxation.Program
import CuttingPlanes.Proofs.Spanning.Network
import CuttingPlanes.Proofs.Spanning.Posed
import CuttingPlanes.Proofs.Multigraph.Greedy

/-! The points that the rows of a problem leave, and the ones that keep every cut. -/

namespace CuttingPlanes.Spanning.Problem

variable {L : Type} {problem : Problem ℚ Nat L}

/-- The values of a list at the positions of edges. -/
def pointOf (problem : Problem ℚ Nat L) (values : List ℚ) : Fin problem.edges.length → ℚ :=
  fun position => values.getD position 0

/-- The program that a problem poses with the rows of some sets. -/
def relaxed (problem : Problem ℚ Nat L) (sets : List (List Nat)) : Linear.Program :=
  Call.program (problem.additions sets)

/-- The values of a point, listed, are the values of the point. -/
@[simp] theorem pointOf_ofFn (point : Fin problem.edges.length → ℚ) :
    problem.pointOf (List.ofFn point) = point := by
  funext position
  simp [pointOf]

/-- A sum over chosen positions runs through them in order. -/
theorem sum_filter_finRange {count : Nat} (chosen : Fin count → Bool) (value : Fin count → ℚ) :
    (((List.finRange count).filter chosen).map value).sum =
      ∑ position with chosen position, value position := by
  -- No position is met twice, so that the list sums as a set.
  rw [← List.sum_toFinset value ((List.nodup_finRange count).filter _)]
  congr 1
  ext position
  simp

/-- The left side of a row of ones adds up values. -/
theorem activity_rowOver (positions : List Nat) (sense : Sense) (rhs : ℚ) (name : String)
    (values : List ℚ) :
    (rowOver positions sense rhs name).linear.activity values =
      (positions.map fun position => values.getD position 0).sum := by
  -- Each coefficient is one.
  simp [rowOver, Row.linear, Linear.Row.activity, Linear.total_eq_sum, Function.comp_def]

theorem activity_cardinalityRow (values : List ℚ) :
    problem.cardinalityRow.linear.activity values =
      ∑ position, problem.pointOf values position := by
  -- All positions are those of the edges, in order.
  rw [cardinalityRow, activity_rowOver, ← List.map_coe_finRange_eq_range, List.map_map]
  exact Fin.sum_univ_def _ |>.symm

/-- The left side of the row of a set is the total over the edges inside the set. -/
theorem IsSound.activity_subtourRow (sound : problem.IsSound) (nodes : List Nat)
    (values : List ℚ) :
    (problem.subtourRow nodes).linear.activity values =
      ∑ position ∈ sound.network.inner (nodeSet problem.size nodes),
        problem.pointOf values position := by
  -- The columns of the row are the edges with both ends in the set.
  rw [subtourRow, activity_rowOver, innerPositions, List.map_map]
  refine (sum_filter_finRange _ _).trans (Finset.sum_congr ?_ fun _ _ => rfl)
  ext position
  simp [network, nodeSet, Edge.within]

@[simp] theorem columns_additions (sets : List (List Nat)) :
    Call.columns (problem.additions sets) = problem.edges.map edgeColumn := by
  simp [additions]

@[simp] theorem rows_additions (sets : List (List Nat)) :
    Call.rows (problem.additions sets) = problem.cardinalityRow :: sets.map problem.subtourRow := by
  simp [additions]

/-- The columns are those of the edges, whatever rows have been added. -/
theorem columns_relaxed (sets : List (List Nat)) :
    (problem.relaxed sets).columns = problem.edges.map fun edge => (edgeColumn edge).linear := by
  simp [relaxed, Call.program]

/-- The first row is that of the tree, and the others are those of the sets. -/
theorem rows_relaxed (sets : List (List Nat)) :
    (problem.relaxed sets).rows =
      problem.cardinalityRow.linear :: sets.map fun nodes => (problem.subtourRow nodes).linear := by
  simp [relaxed, Call.program]

/-- There is one column for each edge. -/
theorem length_columns_relaxed (sets : List (List Nat)) :
    (problem.relaxed sets).columns.length = problem.edges.length := by
  rw [columns_relaxed, List.length_map]

/-- Only a problem without edges poses a program without columns. -/
theorem columns_relaxed_eq_nil {sets : List (List Nat)} :
    (problem.relaxed sets).columns = [] ↔ problem.edges = [] := by
  rw [columns_relaxed, List.map_eq_nil_iff]

theorem holds_edgeColumn (edge : Edge Nat ℚ) (value : ℚ) :
    (edgeColumn edge).linear.bounds.holds value = true ↔ 0 ≤ value ∧ value ≤ 1 := by
  simp [Linear.Bounds.holds_iff, edgeColumn, Column.linear]

/-- A point is feasible when it keeps the bounds, the number of edges, and the cuts of the sets. -/
theorem IsSound.isFeasible_relaxed_iff (sound : problem.IsSound) {sets : List (List Nat)}
    {values : List ℚ} :
    (problem.relaxed sets).isFeasible values = true ↔
      values.length = problem.edges.length ∧
      (∀ position, 0 ≤ problem.pointOf values position ∧ problem.pointOf values position ≤ 1) ∧
      ∑ position, problem.pointOf values position = problem.size - 1 ∧
      ∀ nodes ∈ sets, ∑ position ∈ sound.network.inner (nodeSet problem.size nodes),
        problem.pointOf values position ≤ nodes.length - 1 := by
  rw [Linear.Program.isFeasible_iff, columns_relaxed, rows_relaxed]
  refine (and_congr_left' (by rw [List.length_map])).trans
    (and_congr_right fun same => and_congr ?_ ?_)
  · -- Every column lies between zero and one.
    simp only [List.getElem_map, holds_edgeColumn]
    constructor
    · intro kept position
      have inside : position.val < values.length := by omega
      simpa [pointOf, inside] using kept position (by simp) inside
    · intro kept position column value
      simpa [pointOf, value] using kept ⟨position, by omega⟩
  · rw [List.forall_mem_cons, List.forall_mem_map]
    refine and_congr ?_ (forall₂_congr fun nodes _ => ?_)
    · -- The count of labels is the number of nodes.
      rw [← Row.distance_nonpos_iff, Row.distance, activity_cardinalityRow]
      simp [cardinalityRow, rowOver, sub_eq_zero, sound.labelled]
    · -- A row of a set is kept when its excess is not positive.
      rw [← Row.distance_nonpos_iff, Row.distance, sound.activity_subtourRow]
      simp [subtourRow, rowOver]

/-- The cost of a point is what its values make of the costs of the edges. -/
theorem objective_relaxed {sets : List (List Nat)} {values : List ℚ}
    (same : values.length = problem.edges.length) :
    (problem.relaxed sets).objective values =
      ∑ position, problem.costAt position * problem.pointOf values position := by
  have costs : (problem.relaxed sets).costs = problem.edges.map Edge.cost := by
    simp [Linear.Program.costs, columns_relaxed, Column.linear, edgeColumn, Function.comp_def]
  rw [Linear.Program.objective, costs, Linear.dot_eq_sum _ _ (List.length_map _) same]
  -- Column and edge of a position have the same cost.
  refine Finset.sum_congr rfl fun position _ => ?_
  simp [costAt, pointOf]

/-- A feasible point that exceeds no cut by more than a slack lies in the subtour polytope. -/
theorem IsSound.isSubtourPoint (sound : problem.IsSound) {sets : List (List Nat)} {slack : ℚ}
    {values : List ℚ} (feasible : (problem.relaxed sets).isFeasible values = true)
    (passes : ∀ nodes, IsCutSet problem.size nodes →
      (problem.subtourRow nodes).linear.activity values ≤ nodes.length - 1 + slack) :
    sound.network.IsSubtourPoint slack (problem.pointOf values) := by
  obtain ⟨-, bounds, total, -⟩ := sound.isFeasible_relaxed_iff.1 feasible
  refine ⟨fun edge => (bounds edge).1, fun edge => (bounds edge).2, by simpa using total, ?_⟩
  intro nodes several proper
  -- Every set of nodes is the set of a list that is looked at.
  have cut := isCutSet_nodeList several (by simpa using proper)
  simpa [sound.activity_subtourRow] using passes (nodeList nodes) cut

/-- A point of the subtour polytope is feasible whatever cuts are among the rows. -/
theorem IsSound.isFeasible_of_isSubtourPoint (sound : problem.IsSound) {sets : List (List Nat)}
    (cuts : ∀ nodes ∈ sets, IsCutSet problem.size nodes)
    {point : Fin problem.edges.length → ℚ} (keeps : sound.network.IsSubtourPoint 0 point) :
    (problem.relaxed sets).isFeasible (List.ofFn point) = true := by
  rw [sound.isFeasible_relaxed_iff, pointOf_ofFn]
  refine ⟨List.length_ofFn, fun edge => ⟨keeps.nonneg edge, keeps.le_one edge⟩,
    by simpa using keeps.total, fun nodes member => ?_⟩
  have cut := cuts nodes member
  -- List and set have equally many nodes.
  have card := card_nodeSet cut
  simpa [card] using keeps.cut (nodeSet problem.size nodes) (by rw [card]; exact cut.several)
    (by rw [card]; simpa using cut.proper)

/-- Every spanning tree is feasible, whatever cuts are among the rows, and costs its weight. -/
theorem IsSound.isFeasible_indicator (sound : problem.IsSound) {sets : List (List Nat)}
    (cuts : ∀ nodes ∈ sets, IsCutSet problem.size nodes)
    {tree : Finset (Fin problem.edges.length)} (spanning : sound.network.IsSpanningTree tree) :
    (problem.relaxed sets).isFeasible (List.ofFn (Multigraph.indicator tree)) = true ∧
      (problem.relaxed sets).objective (List.ofFn (Multigraph.indicator tree)) =
        problem.weight tree := by
  refine ⟨sound.isFeasible_of_isSubtourPoint cuts spanning.isSubtourPoint, ?_⟩
  -- Of all costs only those of the edges of the tree are left.
  rw [objective_relaxed List.length_ofFn, pointOf_ofFn, Multigraph.sum_mul_indicator, weight]

/-- A connected problem has a lightest spanning tree. -/
theorem IsSound.exists_isLeastWeight (sound : problem.IsSound) (connected : sound.IsConnected) :
    ∃ least, sound.IsLeastWeight least := by
  classical
  obtain ⟨first, spanning⟩ := Multigraph.exists_isSpanningTree connected
  -- There are finitely many trees, and one of them costs least.
  let trees := Finset.univ.filter fun tree => sound.network.IsSpanningTree tree
  obtain ⟨tree, member, least⟩ := Finset.exists_min_image trees problem.weight
    ⟨first, by simpa [trees] using spanning⟩
  refine ⟨problem.weight tree, ⟨tree, by simpa [trees] using member, rfl⟩, ?_⟩
  rintro _ ⟨other, spanning, rfl⟩
  exact least other (by simpa [trees] using spanning)

end CuttingPlanes.Spanning.Problem
