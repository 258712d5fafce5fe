import CuttingPlanes.Graph.Forest
import CuttingPlanes.Proofs.Multigraph.Exchange

/-! Forests that are grown by comparing the parts of nodes, and the weight of the lightest ones. -/

namespace CuttingPlanes

variable {count : Nat} {E : Type} {graph : Multigraph (Fin count) E} {cost : E → ℚ}

/-- The numbers of the ends of an edge, with its cost. -/
def Multigraph.weighted (graph : Multigraph (Fin count) E) (cost : E → ℚ) (edge : E) :
    Nat × Nat × ℚ :=
  (graph.left edge, graph.right edge, cost edge)

namespace Forest

/-- Numbers for the parts of nodes, which are the same for nodes that some edges connect. -/
structure Labels (graph : Multigraph (Fin count) E) (parts : List Nat) (edges : Finset E) :
    Prop where
  length_eq : parts.length = count
  same_iff : ∀ first second : Fin count, parts.getD first first = parts.getD second second ↔
    (graph.joined edges).Reachable first second

/-- At first every node is on its own. -/
theorem labels_apart (graph : Multigraph (Fin count) E) : Labels graph (apart count) ∅ := by
  refine ⟨List.length_range, fun first second => ?_⟩
  have none : graph.joined ∅ = ⊥ := by simp [Multigraph.joined]
  have own : ∀ node : Fin count, (apart count).getD node node = node := fun node => by
    simp [apart]
  rw [none, SimpleGraph.reachable_bot, own, own, Fin.val_inj]

section Step

variable {parts : List Nat} {edges : Finset E} (labels : Labels graph parts edges)
include labels

/-- Two nodes are in one part when they are connected. -/
theorem Labels.together_iff (first second : Fin count) :
    together parts first second = true ↔ (graph.joined edges).Reachable first second := by
  rw [together, beq_iff_eq, labels.same_iff]

/-- A part that is joined to another one takes its number. -/
theorem Labels.getD_joined (left right node : Fin count) :
    (joined parts left right).getD node node =
      if parts.getD node node = parts.getD left left then parts.getD right right
      else parts.getD node node := by
  have inside : node < parts.length := labels.length_eq ▸ node.isLt
  simp [joined, inside]

/-- Joining the parts at the ends of an edge counts the edge in. -/
theorem Labels.joined [DecidableEq E] (edge : E) :
    Labels graph (joined parts (graph.left edge) (graph.right edge)) (insert edge edges) := by
  refine ⟨by simp [Forest.joined, labels.length_eq], fun first second => ?_⟩
  rw [labels.getD_joined, labels.getD_joined, Multigraph.reachable_insert_iff]
  -- Where nothing was joined before, only numbers are compared.
  simp only [← labels.same_iff]
  split_ifs <;> grind

end Step

variable [Fintype E] [DecidableEq E]

/-- From light edges to heavy ones, what is grown makes a lightest forest of what was there. -/
theorem exists_grown {parts : List Nat} {forest : Finset E} (labels : Labels graph parts forest)
    {order : List E} (extended : graph.Extends cost forest order)
    (sorted : order.Pairwise fun edge later => cost edge ≤ cost later) :
    ∃ taken : List E, grown parts (order.map (graph.weighted cost)) =
        taken.map (graph.weighted cost) ∧ taken.Nodup ∧ (∀ edge ∈ taken, edge ∉ forest) ∧
      graph.IsLightest cost (forest ∪ taken.toFinset) := by
  induction order generalizing parts forest with
  | nil => exact ⟨[], rfl, List.nodup_nil, by simp, by simpa using extended.isLightest⟩
  | cons edge rest ih =>
    obtain ⟨lighter, others⟩ := List.pairwise_cons.1 sorted
    have together := labels.together_iff (graph.left edge) (graph.right edge)
    rw [List.map_cons, grown]
    by_cases reached : (graph.joined forest).Reachable (graph.left edge) (graph.right edge)
    · rw [Multigraph.weighted, if_pos (together.2 reached)]
      exact ih labels (extended.skip reached) others
    · rw [Multigraph.weighted, if_neg (together.not.2 reached)]
      obtain ⟨taken, grows, nodup, fresh, lightest⟩ :=
        ih (labels.joined edge) (extended.take lighter reached) others
      -- An edge of the forest would connect its own ends.
      have new : edge ∉ forest := fun member => reached (Multigraph.adj_ends member).reachable
      refine ⟨edge :: taken, by rw [grows]; rfl, List.nodup_cons.2 ⟨fun again => ?_, nodup⟩, ?_, ?_⟩
      · exact fresh edge again (Finset.mem_insert_self edge forest)
      · refine List.forall_mem_cons.2 ⟨new, fun other member known => ?_⟩
        exact fresh other member (Finset.mem_insert_of_mem known)
      · rwa [List.toFinset_cons, Finset.union_insert, ← Finset.insert_union]

omit [Fintype E] [DecidableEq E] in
/-- The total of some edges that are listed with their costs. -/
theorem foldl_weighted (edges : List E) (total : ℚ) :
    (edges.map (graph.weighted cost)).foldl (fun total edge => total + edge.2.2) total =
      total + (edges.map cost).sum := by
  induction edges generalizing total with
  | nil => simp
  | cons edge rest ih => simp [ih, Multigraph.weighted, add_assoc]

/-- The weight that is told for the edges of a graph is the least one of a spanning forest. -/
theorem isForestWeight_weight {edges : List E} (all : ∀ edge, edge ∈ edges) :
    graph.IsForestWeight cost (weight count (edges.map (graph.weighted cost))) := by
  let lighter (edge later : E) : Bool := cost edge ≤ cost later
  -- The edges are sorted as what stands for them is.
  have ordered : (edges.map (graph.weighted cost)).mergeSort
      (fun left right => left.2.2 ≤ right.2.2) =
      (edges.mergeSort lighter).map (graph.weighted cost) := by
    rw [List.map_mergeSort]
    exact fun _ _ _ _ => rfl
  have perm : (edges.mergeSort lighter).Perm edges := List.mergeSort_perm edges lighter
  have sorted : (edges.mergeSort lighter).Pairwise fun edge later => cost edge ≤ cost later := by
    have trans : ∀ a b c, lighter a b = true → lighter b c = true → lighter a c = true := by
      simpa [lighter] using fun a b c => le_trans
    have total : ∀ a b, (lighter a b || lighter b a) = true := by
      simpa [lighter] using fun a b => le_total (cost a) (cost b)
    exact (List.pairwise_mergeSort trans total edges).imp of_decide_eq_true
  obtain ⟨taken, grows, distinct, -, lightest⟩ := exists_grown (labels_apart graph)
    (.begin graph cost fun edge => perm.mem_iff.2 (all edge)) sorted
  rw [weight, Forest.lightest, ordered, grows, foldl_weighted, zero_add,
    ← List.sum_toFinset cost distinct]
  simpa using lightest.isForestWeight

end Forest

end CuttingPlanes
