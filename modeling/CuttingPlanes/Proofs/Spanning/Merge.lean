import CuttingPlanes.Proofs.Graph.Network
import CuttingPlanes.Proofs.Multigraph.Merge
import CuttingPlanes.Proofs.Spanning.Conversion
import CuttingPlanes.Proofs.Spanning.Moderate

/-! The graph of a problem: of edges between the same two nodes only the last one is kept. -/

namespace CuttingPlanes.Spanning

open CuttingPlanes.Graph (onlyKey)
open NodeLabel (Usable)

section Last

/-- The nodes of an edge, in no order. -/
def Edge.pair (edge : Edge Nat ℚ) : Sym2 Nat := s(edge.left, edge.right)

/-- The last edge between two nodes. -/
def lastBetween? (edges : List (Edge Nat ℚ)) (pair : Sym2 Nat) : Option (Edge Nat ℚ) :=
  edges.reverse.find? fun edge => edge.pair = pair

theorem lastBetween?_append_singleton (edges : List (Edge Nat ℚ)) (edge : Edge Nat ℚ)
    (pair : Sym2 Nat) :
    lastBetween? (edges ++ [edge]) pair =
      if edge.pair = pair then some edge else lastBetween? edges pair := by
  rw [lastBetween?, List.reverse_append, List.reverse_singleton, List.singleton_append,
    List.find?_cons]
  by_cases same : edge.pair = pair <;> simp [same, lastBetween?]

/-- The last edge between two nodes is the one behind which no other has them. -/
theorem lastBetween?_eq_some_iff {edges : List (Edge Nat ℚ)} {pair : Sym2 Nat}
    {edge : Edge Nat ℚ} :
    lastBetween? edges pair = some edge ↔ ∃ position : Fin edges.length,
      edges.get position = edge ∧ edge.pair = pair ∧
        ∀ later, position < later → (edges.get later).pair ≠ pair := by
  -- Both sides are about the edges in front of it when they are taken from the back.
  rw [lastBetween?, List.find?_eq_some_iff_getElem]
  simp only [List.getElem_reverse, decide_eq_true_eq, Bool.not_eq_true', decide_eq_false_iff_not,
    List.length_reverse]
  constructor
  · rintro ⟨same, position, inside, found, others⟩
    refine ⟨⟨edges.length - 1 - position, by omega⟩, found, same, fun later behind => ?_⟩
    have ahead := Fin.lt_def.1 behind
    have other := others (edges.length - 1 - later.val) (by dsimp only at ahead; omega)
    have back : edges.length - 1 - (edges.length - 1 - later.val) = later.val := by omega
    simp only [back] at other
    exact other
  · rintro ⟨position, rfl, same, others⟩
    have back : edges.length - 1 - (edges.length - 1 - position.val) = position.val := by omega
    refine ⟨same, edges.length - 1 - position.val, by omega, by simp only [back]; rfl, ?_⟩
    exact fun other ahead => others ⟨edges.length - 1 - other, by omega⟩ (Fin.lt_def.2 (by
      dsimp only
      omega))

end Last

variable {L : Type} [NodeLabel L] [LawfulNodeLabel L]

section Holds

variable {labels : List L} {edges : List (Edge Nat ℚ)} {graph : Graph L ℚ}

/-- A graph of labelled nodes that holds, between any two of them, the last of some edges. -/
structure HoldsLast (labels : List L) (edges : List (Edge Nat ℚ)) (graph : Graph L ℚ) : Prop where
  simple : graph.IsSimple
  nodes : graph.nodes = labels
  attributes?_eq : ∀ pair, graph.attributes? pair =
    (lastBetween? edges pair).map fun edge => [(costName, edge.cost)]

omit [LawfulNodeLabel L] in
/-- Nodes alone hold no edge. -/
theorem holdsLast_nil (name : Datum) (usable : ∀ label ∈ labels, Usable label)
    (different : labels.Pairwise fun label other => (label == other) = false) :
    HoldsLast labels [] ⟨.simple, name, labels, []⟩ where
  simple := ⟨rfl, usable, different, by simp, by simp, by simp, by simp⟩
  nodes := rfl
  attributes?_eq _ := rfl

/-- One more edge between two nodes is the last one between them. -/
theorem HoldsLast.addEdge (holds : HoldsLast labels edges graph) {edge : Edge Nat ℚ}
    (left : edge.left < labels.length) (right : edge.right < labels.length)
    (apart : edge.left ≠ edge.right) :
    ∃ after, graph.addEdge labels[edge.left] labels[edge.right] [(costName, edge.cost)] =
      .ok after ∧ HoldsLast labels (edges ++ [edge]) after := by
  obtain ⟨simple, rfl, held⟩ := holds
  have knows := simple.knows_of_mem (List.getElem_mem left)
  have also := simple.knows_of_mem (List.getElem_mem right)
  have different : (graph.nodes[edge.left] == graph.nodes[edge.right]) = false := by
    refine Bool.eq_false_iff.2 fun equal => apart ?_
    have same := (simple.beq_iff_place knows also).1 equal
    rwa [simple.place_getElem left, simple.place_getElem right] at same
  have added := Graph.addEdge_of_knows simple.kind simple.usable knows also [(costName, edge.cost)]
  refine ⟨_, added, simple.addEdge different added, rfl, fun pair => ?_⟩
  have between : graph.between graph.nodes[edge.left] graph.nodes[edge.right] = edge.pair := by
    rw [Graph.between, simple.place_getElem left, simple.place_getElem right, Edge.pair]
  rw [simple.attributes?_addEdge knows also added, between, held, lastBetween?_append_singleton]
  split
  · -- The cost takes the place of the one that was there.
    cases lastBetween? edges pair <;> rfl
  · rfl

/-- Edges that are added one by one are held from the last one on. -/
theorem HoldsLast.addLabelled (holds : HoldsLast labels edges graph) {more : List (Edge Nat ℚ)}
    (valid : ∀ edge ∈ more, edge.left < labels.length ∧ edge.right < labels.length ∧
      edge.left ≠ edge.right) :
    ∃ after, addLabelled (.listed labels) graph more = .ok after ∧
      HoldsLast labels (edges ++ more) after := by
  -- With each edge that is added, the edges that are held from are one more.
  induction more generalizing edges graph with
  | nil => exact ⟨graph, rfl, by simpa using holds⟩
  | cons edge rest ih =>
    obtain ⟨⟨left, right, apart⟩, others⟩ := List.forall_mem_cons.1 valid
    obtain ⟨middle, added, holds⟩ := holds.addEdge left right apart
    obtain ⟨after, later, holds⟩ := ih holds others
    have first : itemAt labels edge.left = .ok labels[edge.left] := itemAt_ofNat rfl left
    have second : itemAt labels edge.right = .ok labels[edge.right] := itemAt_ofNat rfl right
    refine ⟨after, ?_, by simpa using holds⟩
    simp only [Spanning.addLabelled, Labels.labelAt, first, second, added, bind, Except.bind]
    exact later

/-- The graph of different labels and edges between them holds the last of the edges. -/
theorem exists_graphOf (name : Datum) (usable : ∀ label ∈ labels, Usable label)
    (different : labels.Pairwise fun label other => (label == other) = false)
    (valid : ∀ edge ∈ edges, edge.left < labels.length ∧ edge.right < labels.length ∧
      edge.left ≠ edge.right) :
    ∃ graph, graphOf name (.listed labels) edges = .ok graph ∧ HoldsLast labels edges graph := by
  have nodes : (Graph.empty .simple name : Graph L ℚ).addNodes labels =
      .ok ⟨.simple, name, labels, []⟩ :=
    addNodes_of_pairwise (by simpa [Graph.empty] using usable)
      (by simpa [Graph.empty] using different)
  obtain ⟨graph, linked, holds⟩ := (holdsLast_nil name usable different).addLabelled valid
  refine ⟨graph, ?_, holds⟩
  simp only [graphOf, Labels.nodes, nodes, bind, Except.bind]
  exact linked

end Holds

namespace Problem

section Overwritten

omit [NodeLabel L] [LawfulNodeLabel L]

variable {problem : Problem ℚ Nat L}

/-- Another edge between the same two nodes stands behind an edge. -/
def IsSound.IsOverwritten (sound : problem.IsSound) (edge : Fin problem.edges.length) : Prop :=
  ∃ later, edge < later ∧ sound.network.ends later = sound.network.ends edge

theorem IsSound.ends_eq_iff (sound : problem.IsSound) {first second : Fin problem.edges.length} :
    sound.network.ends first = sound.network.ends second ↔
      (problem.edges.get first).pair = (problem.edges.get second).pair :=
  (Sym2.map.injective Fin.val_injective).eq_iff.symm

/-- An edge that is not overwritten is the last one between its nodes. -/
theorem IsSound.lastBetween?_eq (sound : problem.IsSound) {edge : Fin problem.edges.length}
    (final : ¬sound.IsOverwritten edge) :
    lastBetween? problem.edges (problem.edges.get edge).pair = some (problem.edges.get edge) :=
  lastBetween?_eq_some_iff.2 ⟨edge, rfl, rfl, fun later behind same =>
    final ⟨later, behind, sound.ends_eq_iff.2 same⟩⟩

/-- The last edge between some nodes is not overwritten. -/
theorem IsSound.exists_of_lastBetween? (sound : problem.IsSound) {pair : Sym2 Nat}
    {edge : Edge Nat ℚ} (last : lastBetween? problem.edges pair = some edge) :
    ∃ position, ¬sound.IsOverwritten position ∧ (problem.edges.get position).pair = pair := by
  obtain ⟨position, rfl, same, others⟩ := lastBetween?_eq_some_iff.1 last
  refine ⟨position, ?_, same⟩
  rintro ⟨later, behind, equal⟩
  exact others later behind ((sound.ends_eq_iff.1 equal).trans same)

end Overwritten

variable {problem : Problem ℚ Nat L} {graph : Graph L ℚ}

/-- The cost on an edge of a graph, which is one where the edge has none. -/
def costOn (graph : Graph L ℚ) (position : Fin graph.edges.length) : ℚ :=
  (Association.find? costName (graph.edges.get position).2.2).getD 1

omit [NodeLabel L] [LawfulNodeLabel L] in
/-- A graph of the labels of a problem has as many nodes. -/
theorem IsSound.counted (sound : problem.IsSound) (nodes : graph.nodes = problem.labels.nodes) :
    graph.nodes.length = problem.size :=
  (congrArg List.length nodes).trans sound.labelled

/-- The cost on an edge is that of the last edge between its nodes. -/
theorem costOn_eq {labels : List L} (holds : HoldsLast labels problem.edges graph)
    {position : Fin graph.edges.length} {edge : Edge Nat ℚ}
    (last : lastBetween? problem.edges
      (graph.between (graph.edges.get position).1 (graph.edges.get position).2.1) = some edge) :
    costOn graph position = edge.cost := by
  have found := holds.simple.attributes?_of_mem_edges (List.get_mem graph.edges position)
  rw [holds.attributes?_eq, last, Option.map_some] at found
  rw [costOn, ← Option.some.inj found]
  rfl

/-- A graph that holds the last edges of a problem merges its edges, of which those stay. -/
theorem merges_of_holdsLast (sound : problem.IsSound)
    (holds : HoldsLast problem.labels.nodes problem.edges graph) :
    (holds.simple.network (sound.counted holds.nodes)).Merges (costOn graph) sound.network
      problem.costAt fun edge => ¬sound.IsOverwritten edge := by
  have counted := sound.counted holds.nodes
  -- Ends are the same when they are the same as pairs of numbers.
  have ends_iff : ∀ edge position, sound.network.ends edge =
      (holds.simple.network counted).ends position ↔ (problem.edges.get edge).pair =
        graph.between (graph.edges.get position).1 (graph.edges.get position).2.1 :=
    fun edge position => (Sym2.map.injective Fin.val_injective).eq_iff.symm
  refine ⟨holds.simple.ends_network_injective counted, fun position => ?_, fun edge => ?_, ?_⟩
  · -- An edge of the graph has the cost of a last edge, which stays.
    have found := holds.simple.attributes?_of_mem_edges (List.get_mem graph.edges position)
    rw [holds.attributes?_eq] at found
    obtain ⟨last, found, -⟩ := Option.map_eq_some_iff.1 found
    obtain ⟨edge, final, same⟩ := sound.exists_of_lastBetween? found
    exact ⟨edge, final, (ends_iff edge position).2 same⟩
  · -- There is a last edge between the nodes of any edge, and it is held.
    have some : (lastBetween? problem.edges (problem.edges.get edge).pair).isSome := by
      rw [lastBetween?, List.find?_isSome]
      exact ⟨problem.edges.get edge, List.mem_reverse.2 (List.get_mem _ _), by simp⟩
    obtain ⟨last, found⟩ := Option.isSome_iff_exists.1 some
    have held := holds.attributes?_eq (problem.edges.get edge).pair
    rw [found, Option.map_some] at held
    obtain ⟨other, member, between⟩ := holds.simple.exists_edge_of_attributes? held
    obtain ⟨position, rfl⟩ := List.mem_iff_get.1 member
    exact ⟨position, ((ends_iff edge position).2 between.symm).symm⟩
  · intro edge final position same
    have between := (ends_iff edge position).1 same.symm
    exact costOn_eq holds (between ▸ sound.lastBetween?_eq final)

/-- How the graph of a problem stands to the problem, given the least weights of both. -/
structure IsSound.Converted (sound : problem.IsSound) (graph : Graph L ℚ) (least later : ℚ) :
    Prop where
  simple : graph.IsSimple
  nodes : graph.nodes = problem.labels.nodes
  connected_iff : ((simple.network (sound.counted nodes)).joined Finset.univ).Connected ↔
    sound.IsConnected
  before : sound.network.IsForestWeight problem.costAt least
  after : (simple.network (sound.counted nodes)).IsForestWeight (costOn graph) later
  least_le : least ≤ later
  /-- A lightest forest needs no edge that is overwritten. -/
  eq_iff : later = least ↔ ∃ forest, sound.network.IsLightest problem.costAt forest ∧
    ∀ edge ∈ forest, ¬sound.IsOverwritten edge
  /-- Of edges between the same two nodes a later one is never dearer. -/
  eq_of_cheaper : (∀ edge other, edge < other →
    sound.network.ends other = sound.network.ends edge →
      problem.costAt other ≤ problem.costAt edge) → later = least

/-- A graph that holds the last edges of a problem joins the same nodes. -/
theorem exists_converted (sound : problem.IsSound)
    (holds : HoldsLast problem.labels.nodes problem.edges graph) :
    ∃ least later, sound.Converted graph least later := by
  have merges := merges_of_holdsLast sound holds
  obtain ⟨forest, lightest⟩ := sound.network.exists_isLightest problem.costAt
  obtain ⟨merger, lighter⟩ := (holds.simple.network (sound.counted holds.nodes)).exists_isLightest
    (costOn graph)
  have before := lightest.isForestWeight
  have after := lighter.isForestWeight
  refine ⟨_, _, holds.simple, holds.nodes, ?_, before, after,
    merges.le_of_isForestWeight before after, merges.eq_iff_of_isForestWeight before after,
    fun cheaper => merges.eq_of_cheapest before after fun edge other final same => ?_⟩
  · rw [merges.joined_univ, IsSound.IsConnected]
  · -- An edge that stays has none with its ends behind it.
    rcases lt_trichotomy edge other with behind | rfl | ahead
    · exact cheaper edge other behind same
    · exact le_rfl
    · exact (final ⟨edge, ahead, same.symm⟩).elim

/--
A problem with labels that are all different has a graph, which joins the same nodes.

The weight of a lightest forest is kept exactly if one can do without edges that are overwritten.
-/
theorem converted_of_make {size : Nat} {edges : List (Edge Nat ℚ)} {labels : Option (List L)}
    {name : Datum} (made : make size edges labels name = .ok problem)
    (usable : ∀ label ∈ problem.labels.nodes, Usable label)
    (different : problem.labels.nodes.Pairwise fun label other => (label == other) = false) :
    ∃ graph least later, problem.toGraph = .ok graph ∧
      (isSound_of_make made).Converted graph least later := by
  have sound := isSound_of_make made
  obtain ⟨listed, rfl, -⟩ := exists_eq_of_make made
  obtain ⟨graph, given, holds⟩ := exists_graphOf (if name.countsTrue then name else .text "")
    usable different fun edge member => ⟨sound.labelled ▸ sound.left_lt edge member,
      sound.labelled ▸ sound.right_lt edge member, sound.apart edge member⟩
  obtain ⟨least, later, converted⟩ := exists_converted sound holds
  exact ⟨graph, least, later, given, converted⟩

end Problem

/-- Three nodes, the first two joined from either side, where the later edge is the cheaper one. -/
def doubled : Problem ℚ Nat Datum where
  size := 3
  edges := [⟨0, 1, 3⟩, ⟨1, 0, 1⟩, ⟨1, 2, 2⟩]
  labels := .listed [.text "b", .text "c", .text "a"]
  name := .nothing

/-- Where the later one of two edges is the cheaper one, the weight is kept. -/
theorem converted_doubled :
    ∃ sound : doubled.IsSound, ∃ graph weight, doubled.toGraph = .ok graph ∧
      sound.Converted graph weight weight := by
  have made : Problem.make 3 doubled.edges (some doubled.labels.nodes) .nothing = .ok doubled := rfl
  obtain ⟨graph, least, later, given, converted⟩ := Problem.converted_of_make made
    (List.forall_mem_cons.2 ⟨rfl, List.forall_mem_cons.2 ⟨rfl,
      List.forall_mem_singleton.2 rfl⟩⟩) (by decide)
  have cheaper : ∀ edge other : Fin doubled.edges.length, edge < other →
      (doubled.edges.get other).pair = (doubled.edges.get edge).pair →
        doubled.costAt other ≤ doubled.costAt edge := by
    decide +kernel
  have same : later = least := converted.eq_of_cheaper fun edge other behind ends =>
    cheaper edge other behind ((Problem.IsSound.ends_eq_iff _).1 ends)
  exact ⟨_, graph, least, given, same ▸ converted⟩

/-- The graph of two edges between the same nodes, of which the later one is the dearer one. -/
def mergedTwins : Graph Nat ℚ :=
  ⟨.simple, .text "", [0, 1], [⟨0, 1, [(onlyKey, [(costName, 2)])]⟩]⟩

/-- The cheaper one of two edges between the same nodes is not in the graph. -/
theorem dearer_twin_is_kept :
    Problem.make 2 [⟨0, 1, 1⟩, ⟨0, 1, 2⟩] none .nothing = .ok twins ∧ twins.labels.nodes.Nodup ∧
      twins.toGraph = .ok mergedTwins ∧
      ∃ (simple : mergedTwins.IsSimple) (counted : mergedTwins.nodes.length = twins.size),
        isSound_twins.network.IsForestWeight twins.costAt 1 ∧
          (simple.network counted).IsForestWeight (Problem.costOn mergedTwins) 2 := by
  have given : twins.toGraph = .ok mergedTwins := rfl
  obtain ⟨graph, made, holds⟩ : ∃ graph, twins.toGraph = .ok graph ∧
      HoldsLast twins.labels.nodes twins.edges graph :=
    exists_graphOf (.text "") (fun _ _ => rfl) (by decide) (by decide)
  obtain rfl : mergedTwins = graph := Except.ok.inj (given.symm.trans made)
  have alone : ∀ edge other : Fin mergedTwins.edges.length, edge = other := by decide
  have cheapest : ∀ edge, twins.costAt ⟨0, by decide⟩ ≤ twins.costAt edge := by decide +kernel
  have only : ∀ edge, Problem.costOn mergedTwins ⟨0, by decide⟩ ≤
      Problem.costOn mergedTwins edge := fun edge => (congrArg _ (alone _ edge)).le
  exact ⟨rfl, by decide, given, holds.simple, rfl,
    Multigraph.isForestWeight_of_parallel (by decide +kernel) cheapest,
    Multigraph.isForestWeight_of_parallel (fun edge other => congrArg _ (alone edge other)) only⟩

end CuttingPlanes.Spanning
