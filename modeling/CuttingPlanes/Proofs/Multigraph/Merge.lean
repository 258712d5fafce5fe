import CuttingPlanes.Proofs.Multigraph.Greedy
import Mathlib.Data.Finset.Max

/-! Lightest spanning forests, and what becomes of them where parallel edges are merged. -/

namespace CuttingPlanes.Multigraph

variable {V E F : Type}

section Least

variable [DecidableEq V] [Fintype E] (graph : Multigraph V E) (cost : E → ℚ)

/-- A spanning forest that is as light as any other one. -/
structure IsLightest (forest : Finset E) : Prop where
  spans : graph.Spans forest Finset.univ
  least : ∀ other, graph.Spans other Finset.univ →
    ∑ edge ∈ forest, cost edge ≤ ∑ edge ∈ other, cost edge

/-- The least total cost of a spanning forest. -/
def IsForestWeight (weight : ℚ) : Prop :=
  IsLeast {total | ∃ forest, graph.Spans forest Finset.univ ∧ total = ∑ edge ∈ forest, cost edge}
    weight

variable {graph cost}

/-- A lightest forest has the least cost. -/
theorem IsLightest.isForestWeight {forest : Finset E} (lightest : graph.IsLightest cost forest) :
    graph.IsForestWeight cost (∑ edge ∈ forest, cost edge) := by
  refine ⟨⟨forest, lightest.spans, rfl⟩, ?_⟩
  rintro _ ⟨other, spans, rfl⟩
  exact lightest.least other spans

theorem IsLightest.eq_of_isForestWeight {forest : Finset E}
    (lightest : graph.IsLightest cost forest) {weight : ℚ}
    (least : graph.IsForestWeight cost weight) : weight = ∑ edge ∈ forest, cost edge :=
  least.unique lightest.isForestWeight

/-- There are spanning forests, and one of them is lightest. -/
theorem exists_isLightest [DecidableEq E] (graph : Multigraph V E) (cost : E → ℚ) :
    ∃ forest, graph.IsLightest cost forest := by
  classical
  -- There are finitely many sets of edges, and some of them are spanning forests.
  obtain ⟨some, spans⟩ := graph.exists_spans Finset.univ
  have nonempty : (Finset.univ.filter fun forest => graph.Spans forest Finset.univ).Nonempty :=
    ⟨some, by simpa using spans⟩
  obtain ⟨forest, among, least⟩ := Finset.exists_min_image _
    (fun forest => ∑ edge ∈ forest, cost edge) nonempty
  exact ⟨forest, (Finset.mem_filter.1 among).2, fun other also => least other (by simpa using also)⟩

end Least

section Carried

variable [DecidableEq V] [DecidableEq F] {graph : Multigraph V E} {other : Multigraph V F}
  {carry : E → F} {forest : Finset E}

/-- Edges that are carried over with their ends join what they joined before. -/
theorem joined_image (same : ∀ edge, other.ends (carry edge) = graph.ends edge)
    (forest : Finset E) : other.joined (forest.image carry) = graph.joined forest := by
  have ends : other.ends ∘ carry = graph.ends := funext same
  rw [joined, joined, Finset.image_image, ends]

omit [DecidableEq V] [DecidableEq F] in
/-- No two edges of a forest are carried to one. -/
theorem injOn_carry (same : ∀ edge, other.ends (carry edge) = graph.ends edge)
    (simple : Set.InjOn graph.ends forest) : Set.InjOn carry forest :=
  fun first among second also equal => simple among also (by rw [← same, equal, same])

/-- A spanning forest is carried to one, where every edge there has the ends of one here. -/
theorem Spans.image [Fintype E] [Fintype F]
    (spans : graph.Spans forest Finset.univ)
    (same : ∀ edge, other.ends (carry edge) = graph.ends edge)
    (covered : ∀ edge, ∃ before, graph.ends before = other.ends edge) :
    other.Spans (forest.image carry) Finset.univ where
  isAcyclic := by
    rw [joined_image same]
    exact spans.isAcyclic
  simple := by
    -- Carried edges with the same ends come from edges with the same ends, which are one.
    intro first among second also equal
    obtain ⟨before, member, rfl⟩ := Finset.mem_image.1 (Finset.mem_coe.1 among)
    obtain ⟨after, follows, rfl⟩ := Finset.mem_image.1 (Finset.mem_coe.1 also)
    rw [same, same] at equal
    rw [spans.simple member follows equal]
  reaches := by
    intro edge _
    rw [joined_image same]
    obtain ⟨before, ends⟩ := covered edge
    have reached := spans.reaches before (Finset.mem_univ before)
    -- The ends may be named in the other order.
    rcases Sym2.eq_iff.1 ends with ⟨left, right⟩ | ⟨left, right⟩
    · rwa [left, right] at reached
    · rw [left, right] at reached
      exact reached.symm

end Carried

/--
A graph that has one edge for all those between the same two nodes of another graph.

Some edges of the other graph stay, and give the edges here their cost.
-/
structure Merges (merged : Multigraph V F) (price : F → ℚ) (graph : Multigraph V E)
    (cost : E → ℚ) (stays : E → Prop) : Prop where
  single : Function.Injective merged.ends
  kept : ∀ edge, ∃ other, stays other ∧ graph.ends other = merged.ends edge
  covers : ∀ edge, ∃ other, merged.ends other = graph.ends edge
  price_eq : ∀ edge, stays edge → ∀ other, merged.ends other = graph.ends edge →
    price other = cost edge

namespace Merges

variable {merged : Multigraph V F} {price : F → ℚ} {graph : Multigraph V E} {cost : E → ℚ}
  {stays : E → Prop} (merges : merged.Merges price graph cost stays)

include merges

/-- An edge that stays for a merged edge. -/
noncomputable def keep (edge : F) : E := (merges.kept edge).choose

theorem stays_keep (edge : F) : stays (merges.keep edge) := (merges.kept edge).choose_spec.1

theorem ends_keep (edge : F) : graph.ends (merges.keep edge) = merged.ends edge :=
  (merges.kept edge).choose_spec.2

theorem cost_keep (edge : F) : cost (merges.keep edge) = price edge :=
  (merges.price_eq _ (merges.stays_keep edge) edge (merges.ends_keep edge).symm).symm

/-- The edge that an edge is merged into. -/
noncomputable def merge (edge : E) : F := (merges.covers edge).choose

theorem ends_merge (edge : E) : merged.ends (merges.merge edge) = graph.ends edge :=
  (merges.covers edge).choose_spec

section Forests

variable [DecidableEq V]

/-- Merging changes nothing in which nodes are joined. -/
theorem joined_univ [Fintype E] [Fintype F] :
    merged.joined Finset.univ = graph.joined Finset.univ := by
  ext first second
  rw [joined_adj, joined_adj]
  constructor
  · rintro ⟨edge, -, ends⟩
    exact ⟨merges.keep edge, Finset.mem_univ _, (merges.ends_keep edge).trans ends⟩
  · rintro ⟨edge, -, ends⟩
    exact ⟨merges.merge edge, Finset.mem_univ _, (merges.ends_merge edge).trans ends⟩

variable [Fintype E] [Fintype F]

/-- A forest of merged edges is one of edges that stay, at the same cost. -/
theorem exists_kept {forest : Finset F} (spans : merged.Spans forest Finset.univ) :
    ∃ kept : Finset E, graph.Spans kept Finset.univ ∧ (∀ edge ∈ kept, stays edge) ∧
      ∑ edge ∈ kept, cost edge = ∑ edge ∈ forest, price edge := by
  classical
  refine ⟨forest.image merges.keep, spans.image merges.ends_keep merges.covers, ?_, ?_⟩
  · exact Finset.forall_mem_image.2 fun edge _ => merges.stays_keep edge
  · rw [Finset.sum_image (injOn_carry merges.ends_keep spans.simple)]
    exact Finset.sum_congr rfl fun edge _ => merges.cost_keep edge

/-- A forest is merged into one, at the cost of the edges that stay. -/
theorem exists_merged {forest : Finset E} (spans : graph.Spans forest Finset.univ) :
    ∃ after : Finset F, merged.Spans after Finset.univ ∧
      ∑ edge ∈ after, price edge = ∑ edge ∈ forest, price (merges.merge edge) := by
  classical
  refine ⟨forest.image merges.merge, spans.image merges.ends_merge fun edge =>
    ⟨merges.keep edge, merges.ends_keep edge⟩, ?_⟩
  exact Finset.sum_image (injOn_carry merges.ends_merge spans.simple)

/-- Merging never makes a lightest forest lighter. -/
theorem le_of_isForestWeight {least later : ℚ} (before : graph.IsForestWeight cost least)
    (after : merged.IsForestWeight price later) : least ≤ later := by
  obtain ⟨⟨forest, spans, rfl⟩, -⟩ := after
  obtain ⟨kept, also, -, same⟩ := merges.exists_kept spans
  rw [← same]
  exact before.2 ⟨kept, also, rfl⟩

/-- The least cost is kept exactly if there is a lightest forest of edges that stay. -/
theorem eq_iff_of_isForestWeight {least later : ℚ} (before : graph.IsForestWeight cost least)
    (after : merged.IsForestWeight price later) :
    later = least ↔ ∃ forest, graph.IsLightest cost forest ∧ ∀ edge ∈ forest, stays edge := by
  constructor
  · -- What is kept of a lightest forest after merging is as light as any forest before.
    rintro rfl
    obtain ⟨⟨forest, spans, rfl⟩, -⟩ := after
    obtain ⟨kept, also, stay, same⟩ := merges.exists_kept spans
    refine ⟨kept, ⟨also, fun other follows => ?_⟩, stay⟩
    rw [same]
    exact before.2 ⟨other, follows, rfl⟩
  · -- Edges that stay are merged at their own cost.
    rintro ⟨forest, lightest, stay⟩
    obtain ⟨merger, spans, same⟩ := merges.exists_merged lightest.spans
    have weight : ∑ edge ∈ merger, price edge = ∑ edge ∈ forest, cost edge :=
      same.trans (Finset.sum_congr rfl fun edge member =>
        merges.price_eq edge (stay edge member) _ (merges.ends_merge edge))
    rw [← lightest.eq_of_isForestWeight before] at weight
    exact le_antisymm (weight ▸ after.2 ⟨merger, spans, rfl⟩)
      (merges.le_of_isForestWeight before after)

/-- Nothing is lost where an edge that stays is never dearer than the others with its ends. -/
theorem eq_of_cheapest {least later : ℚ} (before : graph.IsForestWeight cost least)
    (after : merged.IsForestWeight price later)
    (cheapest : ∀ edge other, stays other → graph.ends other = graph.ends edge →
      cost other ≤ cost edge) : later = least := by
  refine le_antisymm ?_ (merges.le_of_isForestWeight before after)
  obtain ⟨⟨forest, spans, rfl⟩, -⟩ := before
  obtain ⟨merger, also, same⟩ := merges.exists_merged spans
  have cheaper : ∀ edge, price (merges.merge edge) ≤ cost edge := fun edge => by
    rw [← merges.cost_keep]
    exact cheapest edge _ (merges.stays_keep _)
      ((merges.ends_keep _).trans (merges.ends_merge edge))
  calc later ≤ ∑ edge ∈ merger, price edge := after.2 ⟨merger, also, rfl⟩
    _ = ∑ edge ∈ forest, price (merges.merge edge) := same
    _ ≤ ∑ edge ∈ forest, cost edge := Finset.sum_le_sum fun edge _ => cheaper edge

end Forests

end Merges

section Parallel

variable [DecidableEq V] [Fintype E] {graph : Multigraph V E} {cost : E → ℚ}
  (parallel : ∀ edge other, graph.ends edge = graph.ends other)
include parallel

/-- Where all edges are parallel, each one spans what they all do. -/
theorem spans_singleton (edge : E) : graph.Spans {edge} Finset.univ where
  isAcyclic := by
    classical
    have apart : ¬(graph.joined ∅).Reachable (graph.left edge) (graph.right edge) := by
      simpa [joined] using graph.apart edge
    exact ((Spans.empty graph).take apart).isAcyclic
  simple := by simp
  reaches other _ := by
    have joined : (graph.joined {edge}).Adj (graph.left other) (graph.right other) :=
      joined_adj.2 ⟨edge, Finset.mem_singleton_self edge, parallel edge other⟩
    exact joined.reachable

/-- Where all edges are parallel, a lightest forest is one of the cheapest. -/
theorem isForestWeight_of_parallel {edge : E} (least : ∀ other, cost edge ≤ cost other) :
    graph.IsForestWeight cost (cost edge) := by
  refine ⟨⟨{edge}, spans_singleton parallel edge, by simp⟩, ?_⟩
  rintro _ ⟨forest, spans, rfl⟩
  -- A forest without edges reaches nothing, and two edges of a forest are not parallel.
  have some : forest.Nonempty := by
    by_contra none
    obtain rfl := Finset.not_nonempty_iff_eq_empty.1 none
    have reached := spans.reaches edge (Finset.mem_univ edge)
    exact graph.apart edge (by simpa [joined] using reached)
  obtain ⟨other, member⟩ := some
  have single : forest = {other} := Finset.eq_singleton_iff_unique_mem.2
    ⟨member, fun another also => spans.simple also member (parallel another other)⟩
  rw [single, Finset.sum_singleton]
  exact least other

end Parallel

end CuttingPlanes.Multigraph
