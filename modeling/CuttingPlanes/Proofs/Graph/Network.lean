import CuttingPlanes.Proofs.Graph.Rebuild
import CuttingPlanes.Proofs.Multigraph.Basic

/-! The edges of a simple graph as those of its links, and as a graph of numbered nodes. -/

namespace CuttingPlanes.Graph

variable {L K : Type} [NodeLabel L] {graph : Graph L K}

/-- The places of two labels, in no order. -/
def between (graph : Graph L K) (left right : L) : Sym2 Nat :=
  s(graph.place left, graph.place right)

/-- The attributes on the only strand of a link. -/
def Link.attributes (link : Link L K) : Attributes K :=
  (Association.find? onlyKey link.strands).getD []

omit [NodeLabel L] in
theorem Link.attributes_of_single {link : Link L K} {attributes : Attributes K}
    (single : link.strands = [(onlyKey, attributes)]) : Link.attributes link = attributes := by
  rw [Link.attributes, single]
  rfl

/-- The attributes on the link between two places. -/
def attributes? (graph : Graph L K) (pair : Sym2 Nat) : Option (Attributes K) :=
  (graph.links.find? fun link => graph.between link.left link.right = pair).map Link.attributes

/-- Attributes go over those on the link between two nodes, and no other link changes. -/
theorem find?_attach {left right : L} (attributes : Attributes K) (name : L → L → Sym2 Nat)
    {links : List (Link L K)}
    (joins : ∀ link ∈ links, Link.joins link left right = true ↔
      name link.left link.right = name left right)
    (strand : ∀ link ∈ links, ∃ held, link.strands = [(onlyKey, held)]) (pair : Sym2 Nat) :
    ((attach left right (some onlyKey) attributes links).find? fun link =>
        name link.left link.right = pair).map Link.attributes =
      if name left right = pair then
        some (Association.updated (((links.find? fun link =>
          name link.left link.right = pair).map Link.attributes).getD []) attributes)
      else (links.find? fun link => name link.left link.right = pair).map Link.attributes := by
  induction links with
  | nil =>
    by_cases same : name left right = pair
    · simp only [attach, List.find?_singleton, same, if_pos, decide_true]
      rfl
    · simp [attach, same]
  | cons link rest ih =>
    rw [List.forall_mem_cons] at joins strand
    obtain ⟨held, single⟩ := strand.1
    by_cases here : name link.left link.right = name left right
    · -- The link changes, and its ends stay.
      rw [attach, if_pos (joins.1.2 here), List.find?_cons, List.find?_cons]
      by_cases same : name left right = pair
      · simp only [here, same, if_pos, decide_true, Option.map_some, Option.getD_some,
          Link.attributes_of_single single]
        rw [single]
        rfl
      · simp [here, same]
    · rw [attach, if_neg (mt joins.1.1 here), List.find?_cons, List.find?_cons]
      by_cases found : name link.left link.right = pair
      · have other : name left right ≠ pair := fun same => here (found.trans same.symm)
        simp [found, other]
      · simpa [found] using ih joins.2 strand.2

variable [LawfulNodeLabel L]

namespace IsSimple

variable (simple : graph.IsSimple)
include simple

/-- A link joins two nodes when it leads between their places. -/
theorem joins_iff_between {M : Type} {link : Link L M} {left right : L}
    (ends : graph.Knows link.left ∧ graph.Knows link.right) (knows : graph.Knows left)
    (also : graph.Knows right) :
    Link.joins link left right = true ↔
      graph.between link.left link.right = graph.between left right := by
  rw [simple.joins_iff_place ends knows also, between, between, Sym2.eq_iff]

/-- An edge is one of the links, with the attributes on its only strand. -/
theorem exists_link {edge : L × L × Attributes K} (member : edge ∈ graph.edges) :
    ∃ link ∈ graph.links, graph.between link.left link.right = graph.between edge.1 edge.2.1 ∧
      link.strands = [(onlyKey, edge.2.2)] := by
  rw [simple.edges_eq] at member
  obtain ⟨node, listed, onward⟩ := List.mem_flatMap.1 member
  obtain ⟨entry, leads, strand⟩ := List.mem_flatMap.1 onward
  obtain ⟨held, only, rfl⟩ := List.mem_map.1 strand
  obtain ⟨link, among, found⟩ := List.mem_filterMap.1 (List.mem_filter.1 leads).1
  obtain ⟨-, strands, ends⟩ := simple.of_across (simple.knows_of_mem listed) among found
  obtain ⟨attributes, single⟩ := simple.strand link among
  rw [strands, single, List.mem_singleton] at only
  refine ⟨link, among, ?_, by rw [single, only]⟩
  rcases ends with ⟨left, right⟩ | ⟨right, left⟩
  · rw [between, between, left, right]
  · rw [between, between, left, right, Sym2.eq_swap]

/-- A link that leads across from a node to a later one is an edge. -/
theorem exists_edge_of_across {link : Link L K} (member : link ∈ graph.links) {near far : L}
    (knows : graph.Knows near) (onward : graph.place near < graph.place far)
    (across : ∀ node, graph.Knows node → graph.place node = graph.place near →
      Link.across node link = some (far, link.strands)) :
    ∃ edge ∈ graph.edges, graph.between edge.1 edge.2.1 = graph.between near far := by
  obtain ⟨attributes, single⟩ := simple.strand link member
  have same := simple.place_spelled knows
  have listed : graph.spelled near ∈ graph.nodes := knows.spelled_eq ▸ List.get_mem _ _
  have leads : (far, link.strands) ∈ graph.neighbours (graph.spelled near) :=
    List.mem_filterMap.2 ⟨link, member, across _ (simple.knows_spelled knows) same⟩
  refine ⟨(graph.spelled near, far, attributes), ?_, by rw [between, between, same]⟩
  -- The edge is listed at the node that stands first, among what leads on from there.
  rw [simple.edges_eq]
  refine List.mem_flatMap.2 ⟨_, listed, List.mem_flatMap.2 ⟨_, List.mem_filter.2 ⟨leads, ?_⟩, ?_⟩⟩
  · exact decide_eq_true (same ▸ onward)
  · exact List.mem_map.2 ⟨(onlyKey, attributes), by simp [single], rfl⟩

/-- Every link is an edge. -/
theorem exists_edge {link : Link L K} (member : link ∈ graph.links) :
    ∃ edge ∈ graph.edges,
      graph.between edge.1 edge.2.1 = graph.between link.left link.right := by
  obtain ⟨left, right⟩ := simple.knows link member
  have apart : graph.place link.left ≠ graph.place link.right := fun same =>
    Bool.false_ne_true (simple.apart link member ▸ (simple.beq_iff_place left right).2 same)
  -- The edge begins at whichever end stands first.
  rcases apart.lt_or_gt with onward | back
  · refine simple.exists_edge_of_across member left onward fun node knows same => ?_
    rw [Link.across, if_pos ((simple.beq_iff_place left knows).2 same.symm)]
  · obtain ⟨edge, listed, ends⟩ :=
      simple.exists_edge_of_across member right back fun node knows same => by
        rw [Link.across, if_neg fun starts => apart (((simple.beq_iff_place left knows).1
          starts).trans same), if_pos ((simple.beq_iff_place right knows).2 same.symm)]
    exact ⟨edge, listed, ends.trans Sym2.eq_swap⟩

/-- No two links lead between the same places. -/
theorem pairwise_between : graph.links.Pairwise fun link other =>
    graph.between link.left link.right ≠ graph.between other.left other.right := by
  refine simple.distinct.imp_of_mem fun {link other} member also distinct same => ?_
  obtain ⟨left, right⟩ := simple.knows other also
  exact Bool.false_ne_true (distinct ▸
    (simple.joins_iff_between (simple.knows link member) left right).2 same)

/-- Between the ends of a link the attributes are its own. -/
theorem attributes?_of_mem {link : Link L K} (member : link ∈ graph.links) :
    graph.attributes? (graph.between link.left link.right) = some (Link.attributes link) := by
  -- The links before it lead between other places, so that it is the one that is found.
  obtain ⟨before, behind, split⟩ := List.append_of_mem member
  have apart := simple.pairwise_between
  rw [split, List.pairwise_append] at apart
  have first : graph.links.find? (fun other => graph.between other.left other.right =
      graph.between link.left link.right) = some link := by
    refine List.find?_eq_some_iff_append.2 ⟨by simp, before, behind, split, fun other earlier => ?_⟩
    simpa using apart.2.2 other earlier link List.mem_cons_self
  rw [attributes?, first, Option.map_some]

/-- The attributes of an edge are those between its ends. -/
theorem attributes?_of_mem_edges {edge : L × L × Attributes K} (member : edge ∈ graph.edges) :
    graph.attributes? (graph.between edge.1 edge.2.1) = some edge.2.2 := by
  obtain ⟨link, listed, ends, single⟩ := simple.exists_link member
  rw [← ends, simple.attributes?_of_mem listed, Link.attributes_of_single single]

/-- Places with attributes between them are joined by an edge. -/
theorem exists_edge_of_attributes? {pair : Sym2 Nat} {attributes : Attributes K}
    (found : graph.attributes? pair = some attributes) :
    ∃ edge ∈ graph.edges, graph.between edge.1 edge.2.1 = pair := by
  obtain ⟨link, listed, -⟩ := Option.map_eq_some_iff.1 found
  obtain ⟨edge, member, ends⟩ := simple.exists_edge (List.mem_of_find?_eq_some listed)
  exact ⟨edge, member, ends.trans (by simpa using List.find?_some listed)⟩

/-- An edge puts its attributes over those between its ends, and changes nothing else. -/
theorem attributes?_addEdge {left right : L} (knows : graph.Knows left)
    (also : graph.Knows right) {attributes : Attributes K} {after : Graph L K}
    (added : graph.addEdge left right attributes = .ok after) (pair : Sym2 Nat) :
    after.attributes? pair =
      if graph.between left right = pair then
        some (Association.updated ((graph.attributes? pair).getD []) attributes)
      else graph.attributes? pair := by
  rw [addEdge_of_knows simple.kind simple.usable knows also] at added
  obtain rfl := Except.ok.inj added
  exact find?_attach attributes graph.between (fun link member =>
    simple.joins_iff_between (simple.knows link member) knows also) simple.strand pair

/-- Edges between the same places are one. -/
theorem eq_of_between_eq {first second : Fin graph.edges.length}
    (same : graph.between (graph.edges.get first).1 (graph.edges.get first).2.1 =
      graph.between (graph.edges.get second).1 (graph.edges.get second).2.1) : first = second := by
  obtain ⟨-, -, onward⟩ := simple.of_mem_edges (List.get_mem graph.edges first)
  obtain ⟨-, -, further⟩ := simple.of_mem_edges (List.get_mem graph.edges second)
  have apart := List.pairwise_iff_get.1 simple.pairwise_edges
  -- Both lead onward, so that they begin and end at the same places.
  rcases Sym2.eq_iff.1 same with ⟨left, right⟩ | ⟨left, right⟩
  · rcases lt_trichotomy first second with before | equal | behind
    · exact (apart first second before left right).elim
    · exact equal
    · exact (apart second first behind left.symm right.symm).elim
  · exact (lt_irrefl _ ((left ▸ right ▸ onward).trans further)).elim

end IsSimple

/-- The graph of the places of a simple graph; its edges are named by their positions. -/
def IsSimple.network (simple : graph.IsSimple) {count : Nat}
    (counted : graph.nodes.length = count) :
    Multigraph (Fin count) (Fin graph.edges.length) where
  left position := ⟨graph.place (graph.edges.get position).1, counted ▸
    (simple.knows_of_mem (simple.of_mem_edges (List.get_mem _ position)).1).place_lt⟩
  right position := ⟨graph.place (graph.edges.get position).2.1, counted ▸
    (simple.of_mem_edges (List.get_mem _ position)).2.1.place_lt⟩
  apart position same :=
    (simple.of_mem_edges (List.get_mem _ position)).2.2.ne (congrArg Fin.val same)

/-- An edge has the places of its nodes for its ends. -/
theorem IsSimple.map_ends_network (simple : graph.IsSimple) {count : Nat}
    (counted : graph.nodes.length = count) (position : Fin graph.edges.length) :
    ((simple.network counted).ends position).map Fin.val =
      graph.between (graph.edges.get position).1 (graph.edges.get position).2.1 :=
  rfl

theorem IsSimple.ends_network_injective (simple : graph.IsSimple) {count : Nat}
    (counted : graph.nodes.length = count) :
    Function.Injective (simple.network counted).ends := fun first second same =>
  simple.eq_of_between_eq (by rw [← simple.map_ends_network counted, same,
    simple.map_ends_network counted])

end CuttingPlanes.Graph
