import CuttingPlanes.Proofs.Multigraph.Polytope
import Mathlib.Data.Finset.Max

/-!
A point of the subtour polytope that uses a part of an edge can be moved two opposite ways: two
edges that no tight set tells apart exchange a little.
-/

namespace CuttingPlanes.Multigraph

variable {V E : Type} [DecidableEq V] [Fintype E] {graph : Multigraph V E} {point : E → ℚ}

/-- A set of nodes whose cut is used up. -/
structure IsTight (graph : Multigraph V E) (point : E → ℚ) (nodes : Finset V) : Prop where
  nonempty : nodes.Nonempty
  sum_inner : ∑ edge ∈ graph.inner nodes, point edge = nodes.card - 1

/-- Whether an exchange keeps all bounds: every set that would gain has room for the step. -/
structure HasRoom (graph : Multigraph V E) (point : E → ℚ) (first second : E) (step : ℚ) :
    Prop where
  nonneg : 0 ≤ step
  first_above : step ≤ point first
  first_below : point first + step ≤ 1
  second_above : step ≤ point second
  second_below : point second + step ≤ 1
  cut : ∀ nodes : Finset V, nodes.Nonempty →
    (first ∈ graph.inner nodes ↔ second ∈ graph.inner nodes) ∨
      ∑ edge ∈ graph.inner nodes, point edge + step ≤ nodes.card - 1

theorem HasRoom.symm {first second : E} {step : ℚ}
    (room : graph.HasRoom point first second step) : graph.HasRoom point second first step where
  nonneg := room.nonneg
  first_above := room.second_above
  first_below := room.second_below
  second_above := room.first_above
  second_below := room.first_below
  cut nodes nonempty := (room.cut nodes nonempty).imp_left Iff.symm

variable [Fintype V]

/-- Every set of nodes keeps its cut, all nodes together included. -/
theorem IsSubtourPoint.sum_inner_le_card_sub_one (keeps : graph.IsSubtourPoint 0 point)
    {nodes : Finset V} (nonempty : nodes.Nonempty) :
    ∑ edge ∈ graph.inner nodes, point edge ≤ nodes.card - 1 := by
  -- A proper set keeps its cut, and all nodes together have the total of a tree.
  rcases (Finset.card_le_univ nodes).lt_or_eq with proper | all
  · simpa using keeps.sum_inner_le le_rfl nonempty proper
  · rw [all, ← keeps.total]
    exact Finset.sum_le_univ_sum_of_nonneg keeps.nonneg

/-- All nodes together are tight, since the total is that of a tree. -/
theorem IsSubtourPoint.isTight_univ [Nonempty V] (keeps : graph.IsSubtourPoint 0 point) :
    graph.IsTight point Finset.univ where
  nonempty := Finset.univ_nonempty
  sum_inner := by
    -- All edges lie inside the set of all nodes.
    rw [Finset.card_univ, ← keeps.total]
    simp [inner]

/-- An edge inside two sets is inside their common part, and one inside either inside both. -/
theorem IsSubtourPoint.sum_inner_add_le (keeps : graph.IsSubtourPoint 0 point)
    (first second : Finset V) :
    ∑ edge ∈ graph.inner first, point edge + ∑ edge ∈ graph.inner second, point edge ≤
      ∑ edge ∈ graph.inner (first ∪ second), point edge +
        ∑ edge ∈ graph.inner (first ∩ second), point edge := by
  classical
  -- Being inside asks the same of both ends, so that it passes to common parts.
  have common : graph.inner first ∩ graph.inner second = graph.inner (first ∩ second) := by
    ext edge
    simp only [Finset.mem_inter, mem_inner]
    tauto
  have within : graph.inner first ∪ graph.inner second ⊆ graph.inner (first ∪ second) := by
    intro edge
    simp only [Finset.mem_union, mem_inner]
    tauto
  -- Edges from one set to the other count on the right alone.
  rw [← Finset.sum_union_inter, common]
  gcongr
  exact fun edge _ _ => keeps.nonneg edge

/-- Tight sets with a common node have a tight common part. -/
theorem IsTight.inter (keeps : graph.IsSubtourPoint 0 point) {first second : Finset V}
    (left : graph.IsTight point first) (right : graph.IsTight point second)
    (meet : (first ∩ second).Nonempty) : graph.IsTight point (first ∩ second) := by
  refine ⟨meet, le_antisymm (keeps.sum_inner_le_card_sub_one meet) ?_⟩
  -- The union keeps its cut too, so nothing is left over for the common part.
  have inhabited : (first ∪ second).Nonempty := left.nonempty.mono Finset.subset_union_left
  have join := keeps.sum_inner_le_card_sub_one inhabited
  have sizes : ((first ∪ second).card : ℚ) + (first ∩ second).card = first.card + second.card := by
    exact_mod_cast Finset.card_union_add_card_inter first second
  have supermodular := keeps.sum_inner_add_le first second
  rw [left.sum_inner, right.sum_inner] at supermodular
  linarith

/-- A part of an edge is used. -/
def IsFractional (point : E → ℚ) (edge : E) : Prop := point edge ≠ 0 ∧ point edge ≠ 1

/-- A tight set does not hold only one edge of which a part is used. -/
theorem IsTight.exists_ne {nodes : Finset V} (tight : graph.IsTight point nodes)
    (keeps : graph.IsSubtourPoint 0 point) {edge : E} (member : edge ∈ graph.inner nodes)
    (fractional : IsFractional point edge) :
    ∃ other ∈ graph.inner nodes, IsFractional point other ∧ other ≠ edge := by
  classical
  by_contra alone
  push Not at alone
  -- The other edges have a whole total and so has the set, but the edge is no whole number.
  have whole : ∀ other ∈ (graph.inner nodes).erase edge,
      point other = ((if point other = 1 then 1 else 0 : ℤ) : ℚ) := by
    intro other inside
    obtain ⟨different, inside⟩ := Finset.mem_erase.1 inside
    by_cases one : point other = 1
    · simp [one]
    · have zero : point other = 0 := by
        by_contra nonzero
        exact different (alone other inside ⟨nonzero, one⟩)
      simp [zero]
  have split := Finset.add_sum_erase (graph.inner nodes) point member
  rw [Finset.sum_congr rfl whole, ← Int.cast_sum, tight.sum_inner] at split
  generalize ∑ other ∈ (graph.inner nodes).erase edge, (if point other = 1 then 1 else 0 : ℤ) =
    rest at split
  -- A whole total less whole parts leaves a whole rest for the edge.
  have value : point edge = ((nodes.card - 1 - rest : ℤ) : ℚ) := by
    push_cast
    linarith
  have low : 0 < point edge := lt_of_le_of_ne (keeps.nonneg edge) (Ne.symm fractional.1)
  have high : point edge < 1 := lt_of_le_of_ne (keeps.le_one edge) fractional.2
  rw [value] at low high
  have low : (0 : ℤ) < nodes.card - 1 - rest := by exact_mod_cast low
  have high : (nodes.card - 1 - rest : ℤ) < 1 := by exact_mod_cast high
  omega

/-- Two edges, parts of which are used, that every tight set holds together or not at all. -/
theorem IsSubtourPoint.exists_pair (keeps : graph.IsSubtourPoint 0 point) {edge : E}
    (fractional : IsFractional point edge) :
    ∃ first second, IsFractional point first ∧ IsFractional point second ∧ first ≠ second ∧
      ∀ nodes, graph.IsTight point nodes →
        (first ∈ graph.inner nodes ↔ second ∈ graph.inner nodes) := by
  classical
  have : Nonempty V := ⟨graph.left edge⟩
  -- A tight set of fewest nodes that holds such an edge holds two of them.
  let held : Finset (Finset V) := Finset.univ.filter fun nodes =>
    graph.IsTight point nodes ∧ ∃ edge ∈ graph.inner nodes, IsFractional point edge
  have all : Finset.univ ∈ held :=
    Finset.mem_filter.2 ⟨Finset.mem_univ _, keeps.isTight_univ, edge, by simp, fractional⟩
  obtain ⟨least, member, smallest⟩ := Finset.exists_min_image held Finset.card ⟨_, all⟩
  obtain ⟨-, tight, first, first_inside, first_fractional⟩ := Finset.mem_filter.1 member
  obtain ⟨second, second_inside, second_fractional, different⟩ :=
    tight.exists_ne keeps first_inside first_fractional
  -- A tight set that holds one of the two meets the least one in a tight set, hence contains it.
  have contains : ∀ nodes, graph.IsTight point nodes → ∀ edge ∈ graph.inner least,
      IsFractional point edge → edge ∈ graph.inner nodes → least ⊆ nodes := by
    intro nodes other edge inside fractional among
    have common : edge ∈ graph.inner (least ∩ nodes) := by
      simp only [mem_inner, Finset.mem_inter] at inside among ⊢
      exact ⟨⟨inside.1, among.1⟩, inside.2, among.2⟩
    have meet : (least ∩ nodes).Nonempty := ⟨_, (mem_inner.1 common).1⟩
    -- The common part is tight and holds such an edge, so it is no smaller.
    have smaller := smallest (least ∩ nodes) (Finset.mem_filter.2
      ⟨Finset.mem_univ _, tight.inter keeps other meet, edge, common, fractional⟩)
    exact Finset.inter_eq_left.1 (Finset.eq_of_subset_of_card_le Finset.inter_subset_left smaller)
  have monotone : ∀ nodes, least ⊆ nodes → graph.inner least ⊆ graph.inner nodes := by
    intro nodes included edge inside
    obtain ⟨left, right⟩ := mem_inner.1 inside
    exact mem_inner.2 ⟨included left, included right⟩
  -- A set that contains the least one holds all that is inside of it.
  refine ⟨first, second, first_fractional, second_fractional, different.symm, fun nodes other => ?_⟩
  constructor
  · intro among
    exact monotone nodes (contains nodes other first first_inside first_fractional among)
      second_inside
  · intro among
    exact monotone nodes (contains nodes other second second_inside second_fractional among)
      first_inside

/-- A direction in which one edge gains what another one loses. -/
def exchange [DecidableEq E] (gains loses : E) (step : ℚ) : E → ℚ :=
  fun edge => if edge = gains then step else if edge = loses then -step else 0

omit [Fintype E] in
/-- What an exchange brings to a set of edges. -/
theorem sum_exchange [DecidableEq E] {gains loses : E} (different : gains ≠ loses) (step : ℚ)
    (edges : Finset E) :
    ∑ edge ∈ edges, exchange gains loses step edge =
      (if gains ∈ edges then step else 0) - if loses ∈ edges then step else 0 := by
  have split : ∀ edge, exchange gains loses step edge =
      (if edge = gains then step else 0) - if edge = loses then step else 0 := by
    intro edge
    unfold exchange
    by_cases first : edge = gains
    · simp [first, different]
    · by_cases second : edge = loses <;> simp [second, different.symm]
  -- Each of both edges counts once, if it is in the set.
  simp only [split, Finset.sum_sub_distrib, Finset.sum_ite_eq']

/-- An exchange with room for it stays in the polytope. -/
theorem IsSubtourPoint.exchange [DecidableEq E] (keeps : graph.IsSubtourPoint 0 point)
    {gains loses : E} {step : ℚ} (different : gains ≠ loses)
    (room : graph.HasRoom point gains loses step) :
    graph.IsSubtourPoint 0 (point + Multigraph.exchange gains loses step) where
  nonneg edge := by
    have := keeps.nonneg edge
    have := room.nonneg
    simp only [Pi.add_apply, Multigraph.exchange]
    split
    · linarith
    · split
      · rename_i same; subst same; linarith [room.second_above]
      · linarith
  le_one edge := by
    have := keeps.le_one edge
    have := room.nonneg
    simp only [Pi.add_apply, Multigraph.exchange]
    split
    · rename_i same; subst same; linarith [room.first_below]
    · split <;> linarith
  total := by
    simp [Finset.sum_add_distrib, sum_exchange different, keeps.total]
  cut nodes several proper := by
    have nonempty : nodes.Nonempty := Finset.card_pos.1 (by omega)
    simp only [Pi.add_apply, Finset.sum_add_distrib, sum_exchange different]
    -- What one edge of the set gains the other one loses, or there is room for it.
    have kept := keeps.sum_inner_le_card_sub_one nonempty
    have := room.nonneg
    rcases room.cut nodes nonempty with together | spare
    · by_cases inside : gains ∈ graph.inner nodes
      · rw [if_pos inside, if_pos (together.1 inside)]; linarith
      · rw [if_neg inside, if_neg fun other => inside (together.2 other)]; linarith
    · split <;> split <;> linarith

/-- Two such edges have room for some step. -/
theorem IsSubtourPoint.exists_hasRoom (keeps : graph.IsSubtourPoint 0 point) {first second : E}
    (left : IsFractional point first) (right : IsFractional point second)
    (together : ∀ nodes, graph.IsTight point nodes →
      (first ∈ graph.inner nodes ↔ second ∈ graph.inner nodes)) :
    ∃ step, 0 < step ∧ graph.HasRoom point first second step := by
  classical
  -- The least of finitely many positive gaps is a step that fits into all of them.
  let gap : Finset V → ℚ := fun nodes =>
    nodes.card - 1 - ∑ edge ∈ graph.inner nodes, point edge
  let gaps : Finset ℚ :=
    {point first, 1 - point first, point second, 1 - point second} ∪
      (Finset.univ.filter fun nodes => 0 < gap nodes).image gap
  have inhabited : gaps.Nonempty := ⟨point first, by simp [gaps]⟩
  have positive : ∀ value ∈ gaps, 0 < value := by
    -- A part of an edge leaves a gap on either side.
    have above : ∀ edge, IsFractional point edge → 0 < point edge ∧ point edge < 1 :=
      fun edge used => ⟨lt_of_le_of_ne (keeps.nonneg edge) (Ne.symm used.1),
        lt_of_le_of_ne (keeps.le_one edge) used.2⟩
    have first_used := above first left
    have second_used := above second right
    intro value member
    simp only [gaps, Finset.mem_union, Finset.mem_insert, Finset.mem_singleton, Finset.mem_image,
      Finset.mem_filter, Finset.mem_univ, true_and] at member
    rcases member with (rfl | rfl | rfl | rfl) | ⟨nodes, wide, rfl⟩
    · exact first_used.1
    · linarith [first_used.2]
    · exact second_used.1
    · linarith [second_used.2]
    · exact wide
  have least : ∀ value ∈ gaps, gaps.min' inhabited ≤ value := fun value => gaps.min'_le value
  refine ⟨gaps.min' inhabited, positive _ (gaps.min'_mem inhabited), ?_⟩
  exact
    { nonneg := (positive _ (gaps.min'_mem inhabited)).le
      first_above := least _ (by simp [gaps])
      first_below := by linarith [least (1 - point first) (by simp [gaps])]
      second_above := least _ (by simp [gaps])
      second_below := by linarith [least (1 - point second) (by simp [gaps])]
      cut := fun nodes nonempty => by
        -- A tight set does not tell the edges apart, and any other one has a gap.
        rcases (sub_nonneg.2 (keeps.sum_inner_le_card_sub_one nonempty)).eq_or_lt with full | wide
        · exact .inl (together nodes ⟨nonempty, by linarith⟩)
        · have fits := least (gap nodes) (Finset.mem_union_right _ (Finset.mem_image_of_mem _
            (Finset.mem_filter.2 ⟨Finset.mem_univ _, wide⟩)))
          exact .inr (by simp only [gap] at fits; linarith) }

/-- A point of the subtour polytope that uses a part of an edge lies between two others. -/
theorem IsSubtourPoint.exists_direction (keeps : graph.IsSubtourPoint 0 point) {edge : E}
    (fractional : IsFractional point edge) :
    ∃ direction : E → ℚ, direction ≠ 0 ∧ graph.IsSubtourPoint 0 (point + direction) ∧
      graph.IsSubtourPoint 0 (point - direction) := by
  classical
  obtain ⟨first, second, left, right, different, together⟩ := keeps.exists_pair fractional
  obtain ⟨step, positive, room⟩ := keeps.exists_hasRoom left right together
  refine ⟨Multigraph.exchange first second step, fun zero => ?_, keeps.exchange different room, ?_⟩
  · have none := congrFun zero first
    simp only [Multigraph.exchange, if_true, Pi.zero_apply] at none
    exact positive.ne' none
  · -- The opposite exchange is the same one between the edges in the other order.
    have opposite : -Multigraph.exchange first second step =
        Multigraph.exchange second first step := by
      funext edge
      simp only [Multigraph.exchange, Pi.neg_apply]
      split <;> split <;> simp_all
    rw [sub_eq_add_neg, opposite]
    exact keeps.exchange different.symm room.symm

end CuttingPlanes.Multigraph
