import CuttingPlanes.Proofs.Multigraph.Merge

/-!
Forests that some lightest forest extends by edges still to come: a light edge between two parts may
be taken, and one within a part may be left out.
-/

namespace CuttingPlanes.Multigraph

variable {V E : Type} [DecidableEq V] {graph : Multigraph V E}

/-- What edges reach is reached wherever the ends of each of them are. -/
theorem reachable_of_forall {edges : Finset E} {connections : SimpleGraph V} {first second : V}
    (reached : (graph.joined edges).Reachable first second)
    (reaches : ∀ edge ∈ edges, connections.Reachable (graph.left edge) (graph.right edge)) :
    connections.Reachable first second := by
  rw [SimpleGraph.reachable_iff_reflTransGen] at reached
  -- Every step of a walk is an edge, in one direction or the other.
  induction reached with
  | refl => rfl
  | tail _ step ih =>
    obtain ⟨edge, among, same⟩ := joined_adj.1 step
    refine ih.trans ?_
    rcases Sym2.eq_iff.1 same with ⟨rfl, rfl⟩ | ⟨rfl, rfl⟩
    · exact reaches edge among
    · exact (reaches edge among).symm

/-- A tree spans all edges. -/
theorem IsSpanningTree.spans [Fintype V] [Fintype E] {tree : Finset E}
    (spanning : graph.IsSpanningTree tree) : graph.Spans tree Finset.univ where
  isAcyclic := spanning.isTree.isAcyclic
  simple := by
    -- A tree has as many joined pairs as edges, so that no two of these share a pair.
    have pairs := (SimpleGraph.isTree_iff_connected_and_card.1 spanning.isTree).2
    have nodes : Nat.card V = tree.card + 1 := by
      rw [Nat.card_eq_fintype_card, spanning.card_add_one]
    rw [edgeSet_joined, nodes] at pairs
    refine Finset.card_image_iff.1 ?_
    simpa using pairs
  reaches edge _ := spanning.isTree.connected.preconnected _ _

variable [DecidableEq E] {forest : Finset E} {edge other : E}

/-- What one edge more reaches is reached before, or over the edge in one of both directions. -/
theorem reachable_insert_iff {first second : V} :
    (graph.joined (insert edge forest)).Reachable first second ↔
      (graph.joined forest).Reachable first second ∨
      ((graph.joined forest).Reachable first (graph.left edge) ∧
        (graph.joined forest).Reachable (graph.right edge) second) ∨
      ((graph.joined forest).Reachable first (graph.right edge) ∧
        (graph.joined forest).Reachable (graph.left edge) second) := by
  have kept : graph.joined forest ≤ graph.joined (insert edge forest) :=
    joined_mono (Finset.subset_insert edge forest)
  have across :
      (graph.joined (insert edge forest)).Reachable (graph.left edge) (graph.right edge) :=
    (adj_ends (Finset.mem_insert_self edge forest)).reachable
  constructor
  · intro reached
    rw [SimpleGraph.reachable_iff_reflTransGen] at reached
    -- A walk that has come over the edge either goes on from its far end or comes back over it.
    induction reached with
    | refl => exact .inl (SimpleGraph.Reachable.refl _)
    | tail _ step ih =>
      obtain ⟨used, among, same⟩ := joined_adj.1 step
      rcases Finset.mem_insert.1 among with rfl | before
      · rcases Sym2.eq_iff.1 same with ⟨rfl, rfl⟩ | ⟨rfl, rfl⟩
        · rcases ih with here | ⟨here, -⟩ | ⟨here, -⟩
          · exact .inr (.inl ⟨here, SimpleGraph.Reachable.refl _⟩)
          · exact .inr (.inl ⟨here, SimpleGraph.Reachable.refl _⟩)
          · exact .inl here
        · rcases ih with here | ⟨here, -⟩ | ⟨here, -⟩
          · exact .inr (.inr ⟨here, SimpleGraph.Reachable.refl _⟩)
          · exact .inl here
          · exact .inr (.inr ⟨here, SimpleGraph.Reachable.refl _⟩)
      · have on := (joined_adj.2 ⟨used, before, same⟩ : (graph.joined forest).Adj _ _).reachable
        exact ih.imp (fun here => here.trans on) (Or.imp (fun here => ⟨here.1, here.2.trans on⟩)
          fun here => ⟨here.1, here.2.trans on⟩)
  · rintro (here | ⟨here, there⟩ | ⟨here, there⟩)
    · exact here.mono kept
    · exact (here.mono kept).trans (across.trans (there.mono kept))
    · exact (here.mono kept).trans (across.symm.trans (there.mono kept))

/-- Without one of its edges a forest no longer connects the ends of that edge. -/
theorem not_reachable_erase (isAcyclic : (graph.joined forest).IsAcyclic)
    (simple : Set.InjOn graph.ends forest) (member : edge ∈ forest) :
    ¬(graph.joined (forest.erase edge)).Reachable (graph.left edge) (graph.right edge) := by
  have bridge := SimpleGraph.isAcyclic_iff_forall_adj_isBridge.1 isAcyclic (adj_ends member)
  rw [SimpleGraph.isBridge_iff] at bridge
  refine fun reached => bridge (reached.mono fun first second step => ?_)
  -- No other edge of the forest joins the same two nodes.
  obtain ⟨used, among, same⟩ := joined_adj.1 step
  obtain ⟨different, before⟩ := Finset.mem_erase.1 among
  rw [SimpleGraph.deleteEdges_adj]
  refine ⟨joined_adj.2 ⟨used, before, same⟩, fun equal => different (simple before member ?_)⟩
  exact same.trans equal

/-- Where a forest connects what a part of it does not, one of its other edges is needed for it. -/
theorem exists_needed {part : Finset E} (included : part ⊆ forest) {first second : V}
    (isAcyclic : (graph.joined forest).IsAcyclic) (simple : Set.InjOn graph.ends forest)
    (reached : (graph.joined forest).Reachable first second)
    (unreached : ¬(graph.joined part).Reachable first second) :
    ∃ needed ∈ forest, needed ∉ part ∧
      ¬(graph.joined (forest.erase needed)).Reachable first second := by
  classical
  -- The fewest edges beside the part that connect both have one that none of them can replace.
  let enough : Finset (Finset E) := forest.powerset.filter fun edges =>
    part ⊆ edges ∧ (graph.joined edges).Reachable first second
  have all : forest ∈ enough := by simp [enough, included, reached]
  obtain ⟨fewest, among, least⟩ := Finset.exists_min_image enough Finset.card ⟨_, all⟩
  obtain ⟨within, above, connects⟩ : fewest ⊆ forest ∧ part ⊆ fewest ∧
      (graph.joined fewest).Reachable first second := by simpa [enough] using among
  obtain ⟨needed, member, beside⟩ : ∃ needed ∈ fewest, needed ∉ part := by
    by_contra none
    push Not at none
    exact unreached (Finset.Subset.antisymm none above ▸ connects)
  have short : ¬(graph.joined (fewest.erase needed)).Reachable first second := by
    intro still
    have smaller := least (fewest.erase needed) (by
      simp only [enough, Finset.mem_filter, Finset.mem_powerset]
      exact ⟨(Finset.erase_subset _ _).trans within, Finset.subset_erase.2 ⟨above, beside⟩, still⟩)
    exact smaller.not_gt (Finset.card_erase_lt_of_mem member)
  refine ⟨needed, within member, beside, fun still => ?_⟩
  -- Both lead to the ends of the edge, which would therefore be connected without it.
  have kept : graph.joined (fewest.erase needed) ≤ graph.joined (forest.erase needed) :=
    joined_mono (Finset.erase_subset_erase needed within)
  rw [← Finset.insert_erase member, reachable_insert_iff] at connects
  refine not_reachable_erase isAcyclic simple (within member) ?_
  rcases connects.resolve_left short with ⟨here, there⟩ | ⟨here, there⟩
  · exact (here.mono kept).symm.trans (still.trans (there.mono kept).symm)
  · exact (there.mono kept).trans (still.symm.trans (here.mono kept))

variable [Fintype E]

/-- An edge may take the place of one that is needed to connect its ends. -/
theorem Spans.exchange (spans : graph.Spans forest Finset.univ) (member : other ∈ forest)
    (needed : ¬(graph.joined (forest.erase other)).Reachable (graph.left edge)
      (graph.right edge)) : graph.Spans (insert edge (forest.erase other)) Finset.univ := by
  have fewer : graph.joined (forest.erase other) ≤ graph.joined forest :=
    joined_mono (Finset.erase_subset other forest)
  have bare : graph.Spans (forest.erase other) ∅ :=
    ⟨spans.isAcyclic.anti fewer, spans.simple.mono (Finset.erase_subset other forest), by simp⟩
  have taken := bare.take needed
  refine ⟨taken.isAcyclic, taken.simple, fun passed _ => ?_⟩
  have kept : graph.joined (forest.erase other) ≤ graph.joined (insert edge (forest.erase other)) :=
    joined_mono (Finset.subset_insert _ _)
  -- The ends of the edge that was needed are still connected, now the other way round.
  refine reachable_of_forall (spans.reaches passed (Finset.mem_univ passed)) fun used among => ?_
  by_cases same : used = other
  · subst same
    have across : (graph.joined (insert edge (forest.erase used))).Reachable (graph.left edge)
      (graph.right edge) := (adj_ends (Finset.mem_insert_self _ _)).reachable
    have before := spans.reaches edge (Finset.mem_univ edge)
    rw [← Finset.insert_erase member, reachable_insert_iff] at before
    rcases before.resolve_left needed with ⟨here, there⟩ | ⟨here, there⟩
    · exact (here.mono kept).symm.trans (across.trans (there.mono kept).symm)
    · exact (there.mono kept).trans (across.symm.trans (here.mono kept))
  · exact ((adj_ends (Finset.mem_erase.2 ⟨same, among⟩)).reachable).mono kept

/-- A forest that some lightest one extends by edges of a list. -/
def Extends (graph : Multigraph V E) (cost : E → ℚ) (forest : Finset E) (rest : List E) : Prop :=
  ∃ lightest, graph.IsLightest cost lightest ∧ forest ⊆ lightest ∧
    ∀ edge ∈ lightest, edge ∈ forest ∨ edge ∈ rest

namespace Extends

variable {cost : E → ℚ} {rest : List E}

/-- Nothing is extended by all edges. -/
theorem begin (graph : Multigraph V E) (cost : E → ℚ) {order : List E}
    (all : ∀ edge, edge ∈ order) : graph.Extends cost ∅ order := by
  obtain ⟨lightest, least⟩ := graph.exists_isLightest cost
  exact ⟨lightest, least, Finset.empty_subset _, fun edge _ => .inr (all edge)⟩

omit [DecidableEq E] in
/-- What is extended by nothing is lightest itself. -/
theorem isLightest (extended : graph.Extends cost forest []) : graph.IsLightest cost forest := by
  obtain ⟨lightest, least, included, covered⟩ := extended
  have same : forest = lightest :=
    Finset.Subset.antisymm included fun edge member => by simpa using covered edge member
  rwa [same]

/-- An edge between connected nodes is not needed. -/
theorem skip (extended : graph.Extends cost forest (edge :: rest))
    (reached : (graph.joined forest).Reachable (graph.left edge) (graph.right edge)) :
    graph.Extends cost forest rest := by
  obtain ⟨lightest, least, included, covered⟩ := extended
  refine ⟨lightest, least, included, fun used member => ?_⟩
  by_contra neither
  obtain ⟨beside, passed⟩ := not_or.1 neither
  obtain rfl : used = edge := by simpa [beside, passed] using covered used member
  -- The lightest forest would connect the ends of the edge twice.
  refine not_reachable_erase least.spans.isAcyclic least.spans.simple member (reached.mono ?_)
  exact joined_mono (Finset.subset_erase.2 ⟨included, beside⟩)

/-- The lightest edge that is left may be taken where it connects two parts. -/
theorem take (extended : graph.Extends cost forest (edge :: rest))
    (lighter : ∀ later ∈ rest, cost edge ≤ cost later)
    (unreached : ¬(graph.joined forest).Reachable (graph.left edge) (graph.right edge)) :
    graph.Extends cost (insert edge forest) rest := by
  obtain ⟨lightest, least, included, covered⟩ := extended
  by_cases held : edge ∈ lightest
  · refine ⟨lightest, least, Finset.insert_subset held included, fun used member => ?_⟩
    have := covered used member
    simp only [List.mem_cons, Finset.mem_insert] at this ⊢
    tauto
  · -- Some edge beside the forest is needed in its place, and is no lighter.
    obtain ⟨needed, member, beside, short⟩ := exists_needed included least.spans.isAcyclic
      least.spans.simple (least.spans.reaches edge (Finset.mem_univ edge)) unreached
    have later : needed ∈ rest := by
      have := covered needed member
      simp only [List.mem_cons] at this
      rcases this with inside | rfl | later
      · exact (beside inside).elim
      · exact (held member).elim
      · exact later
    have spans := least.spans.exchange member short
    have fresh : edge ∉ lightest.erase needed := fun inside => held (Finset.mem_of_mem_erase inside)
    refine ⟨insert edge (lightest.erase needed), ⟨spans, fun other also => ?_⟩, ?_, ?_⟩
    · refine le_trans ?_ (least.least other also)
      rw [Finset.sum_insert fresh, ← Finset.add_sum_erase _ cost member]
      gcongr
      exact lighter needed later
    · exact Finset.insert_subset_insert edge (Finset.subset_erase.2 ⟨included, beside⟩)
    · intro used among
      rcases Finset.mem_insert.1 among with rfl | before
      · exact .inl (Finset.mem_insert_self _ _)
      · have := covered used (Finset.mem_of_mem_erase before)
        simp only [List.mem_cons, Finset.mem_insert] at this ⊢
        tauto

end Extends

end CuttingPlanes.Multigraph
