import CuttingPlanes.Proofs.Graph.Simple
import Mathlib.Data.List.Basic

/-! The edges of a simple graph, and the graph that they make when they are added one by one. -/

namespace CuttingPlanes.Graph

open NodeLabel (Usable)

variable {L K : Type} [NodeLabel L] {graph : Graph L K}

/-- The edges that lead from a node to a later one. -/
def onward (graph : Graph L K) (node : L) : List (L × L × Attributes K) :=
  ((graph.neighbours node).filter fun entry => graph.place node < graph.place entry.1).flatMap
    fun entry => entry.2.map fun strand => (node, entry.1, strand.2)

/-- What lies across a link from a node, with the strands that lead there. -/
def Link.across (node : L) (link : Link L K) : Option (L × List (Datum × Attributes K)) :=
  if link.left == node then some (link.right, link.strands)
  else if link.right == node then some (link.left, link.strands)
  else none

theorem fst_of_mem_onward {node : L} {edge : L × L × Attributes K}
    (member : edge ∈ graph.onward node) : edge.1 = node := by
  obtain ⟨entry, -, strand⟩ := List.mem_flatMap.1 member
  obtain ⟨held, -, rfl⟩ := List.mem_map.1 strand
  rfl

variable [LawfulNodeLabel L]

theorem IsSimple.knows_of_mem (simple : graph.IsSimple) {node : L} (member : node ∈ graph.nodes) :
    graph.Knows node :=
  ⟨simple.usable node member, node, member, (simple.usable node member).refl⟩

/-- What lies across a link from a node is the other end of the link. -/
theorem IsSimple.of_across (simple : graph.IsSimple) {node : L} (knows : graph.Knows node)
    {link : Link L K} (listed : link ∈ graph.links) {entry : L × List (Datum × Attributes K)}
    (found : Link.across node link = some entry) :
    graph.Knows entry.1 ∧ entry.2 = link.strands ∧
      ((graph.place link.left = graph.place node ∧ graph.place link.right = graph.place entry.1) ∨
        (graph.place link.right = graph.place node ∧
          graph.place link.left = graph.place entry.1)) := by
  obtain ⟨left, right⟩ := simple.knows link listed
  rw [Link.across] at found
  split_ifs at found with starts ends
  · obtain rfl := Option.some.inj found
    exact ⟨right, rfl, .inl ⟨(simple.beq_iff_place left knows).1 starts, rfl⟩⟩
  · obtain rfl := Option.some.inj found
    exact ⟨left, rfl, .inr ⟨(simple.beq_iff_place right knows).1 ends, rfl⟩⟩

/-- A neighbour of a node is another node, to which one strand leads. -/
theorem IsSimple.of_mem_neighbours (simple : graph.IsSimple) {node : L} (knows : graph.Knows node)
    {entry : L × List (Datum × Attributes K)} (member : entry ∈ graph.neighbours node) :
    graph.Knows entry.1 ∧ graph.place entry.1 ≠ graph.place node ∧
      ∃ attributes, entry.2 = [(onlyKey, attributes)] := by
  obtain ⟨link, listed, found⟩ := List.mem_filterMap.1 member
  obtain ⟨known, strands, ends⟩ := simple.of_across knows listed found
  refine ⟨known, fun same => ?_, strands ▸ simple.strand link listed⟩
  -- Otherwise the link would lead from the node to itself.
  obtain ⟨left, right⟩ := simple.knows link listed
  refine Bool.false_ne_true (simple.apart link listed ▸ (simple.beq_iff_place left right).2 ?_)
  rcases ends with ⟨starts, leads⟩ | ⟨ends, leads⟩
  · rw [starts, leads, same]
  · rw [ends, leads, same]

/-- A node has its neighbours by one link each. -/
theorem IsSimple.pairwise_neighbours (simple : graph.IsSimple) {node : L}
    (knows : graph.Knows node) :
    (graph.neighbours node).Pairwise fun entry other =>
      graph.place entry.1 ≠ graph.place other.1 := by
  refine List.pairwise_filterMap.2 (simple.distinct.imp_of_mem ?_)
  intro link other listed also distinct entry found another follows same
  obtain ⟨-, -, ends⟩ := simple.of_across knows listed found
  obtain ⟨-, -, others⟩ := simple.of_across knows also follows
  -- Two links to neighbours at the same place would join the same two nodes.
  refine Bool.false_ne_true (distinct ▸ (simple.joins_iff_place (simple.knows link listed)
    (simple.knows other also).1 (simple.knows other also).2).2 ?_)
  rcases ends with ⟨here, there⟩ | ⟨here, there⟩ <;>
    rcases others with ⟨first, second⟩ | ⟨first, second⟩ <;>
    simp [here, there, first, second, same]

/-- The nodes stand in the order of their places. -/
theorem IsSimple.pairwise_place (simple : graph.IsSimple) :
    graph.nodes.Pairwise fun node other => graph.place node < graph.place other := by
  have places : graph.nodes.map graph.place = List.range graph.nodes.length :=
    List.ext_getElem (by simp) fun position inside _ => by
      simp [simple.place_getElem (by simpa using inside)]
  rw [← List.pairwise_map, places]
  exact List.pairwise_lt_range

omit [LawfulNodeLabel L] in
/-- A place is among those of the first nodes when one of these is equal to the label. -/
theorem place_lt_iff {before rest : List L} (split : graph.nodes = before ++ rest) {label : L} :
    graph.place label < before.length ↔ ∃ node ∈ before, (node == label) = true := by
  rw [place, split, List.findIdx_append, ← List.findIdx_lt_length]
  split_ifs with found
  · rfl
  · simp [found]

/-- A node has been visited when its place is among those of the first nodes. -/
theorem IsSimple.contains_visited (simple : graph.IsSimple) {visited rest : List L}
    (split : graph.nodes = visited.reverse ++ rest) {label : L} (usable : Usable label) :
    visited.contains label = decide (graph.place label < visited.length) := by
  rw [List.contains_eq_any_beq, Bool.eq_iff_iff, List.any_eq_true, decide_eq_true_iff,
    ← visited.length_reverse, place_lt_iff split]
  -- It does not matter on which side the visited node is named.
  simp only [List.mem_reverse]
  refine exists_congr fun node => and_congr_right fun member => ?_
  rw [usable.comm (simple.usable node (by simp [split, member]))]

/-- From any node on, the edges are those that lead from each node to later ones. -/
theorem IsSimple.edgesFrom_eq (simple : graph.IsSimple) {visited rest : List L}
    (split : graph.nodes = visited.reverse ++ rest) :
    graph.edgesFrom visited rest = rest.flatMap graph.onward := by
  -- With every node the visited ones become one more.
  induction rest generalizing visited with
  | nil => rfl
  | cons node rest ih =>
    have knows := simple.knows_of_mem (show node ∈ graph.nodes by simp [split])
    have place : graph.place node = visited.length := by
      have inside : visited.length < graph.nodes.length := by simp [split]
      have here : graph.nodes[visited.length] = node := by simp [split]
      rw [← here, simple.place_getElem inside]
    have fresh : (graph.neighbours node).filter (fun entry => !visited.contains entry.1) =
        (graph.neighbours node).filter fun entry => graph.place node < graph.place entry.1 := by
      refine List.filter_congr fun entry member => ?_
      obtain ⟨known, other, -⟩ := simple.of_mem_neighbours knows member
      rw [place] at other ⊢
      rw [simple.contains_visited split known.1, ← decide_not, decide_eq_decide]
      omega
    rw [edgesFrom, fresh, ih (by simp [split]), List.flatMap_cons, onward]

/-- The edges are those that lead from each node to later ones, node by node. -/
theorem IsSimple.edges_eq (simple : graph.IsSimple) :
    graph.edges = graph.nodes.flatMap graph.onward :=
  simple.edgesFrom_eq rfl

/-- An edge leads from a node, spelled as it is listed, to a later node. -/
theorem IsSimple.of_mem_edges (simple : graph.IsSimple) {edge : L × L × Attributes K}
    (member : edge ∈ graph.edges) :
    edge.1 ∈ graph.nodes ∧ graph.Knows edge.2.1 ∧
      graph.place edge.1 < graph.place edge.2.1 := by
  rw [simple.edges_eq] at member
  obtain ⟨node, listed, onward⟩ := List.mem_flatMap.1 member
  obtain ⟨entry, leads, strand⟩ := List.mem_flatMap.1 onward
  obtain ⟨held, -, rfl⟩ := List.mem_map.1 strand
  obtain ⟨near, later⟩ := List.mem_filter.1 leads
  exact ⟨listed, (simple.of_mem_neighbours (simple.knows_of_mem listed) near).1,
    of_decide_eq_true later⟩

/-- The edges that begin at a node are those that lead on from it. -/
theorem IsSimple.filter_edges (simple : graph.IsSimple) {node : L} (member : node ∈ graph.nodes) :
    (graph.edges.filter fun edge => graph.place edge.1 = graph.place node) =
      graph.onward node := by
  obtain ⟨before, behind, split⟩ := List.append_of_mem member
  have order := simple.pairwise_place
  rw [split, List.pairwise_append, List.pairwise_cons] at order
  -- Of the edges at another node none is left.
  have none : ∀ others : List L, (∀ other ∈ others, graph.place other ≠ graph.place node) →
      (others.flatMap graph.onward).filter (fun edge => graph.place edge.1 = graph.place node) =
        [] := by
    intro others apart
    rw [List.filter_eq_nil_iff]
    intro edge leads
    obtain ⟨other, listed, leads⟩ := List.mem_flatMap.1 leads
    simpa [fst_of_mem_onward leads] using apart other listed
  have own : (graph.onward node).filter (fun edge => graph.place edge.1 = graph.place node) =
      graph.onward node :=
    List.filter_eq_self.2 fun edge leads => by simp [fst_of_mem_onward leads]
  rw [simple.edges_eq, split, List.flatMap_append, List.flatMap_cons, List.filter_append,
    List.filter_append, none before fun other listed =>
      (order.2.2 other listed node List.mem_cons_self).ne, own,
    none behind fun other listed => (order.2.1.1 other listed).ne', List.append_nil,
    List.nil_append]

/-- No two edges join the same two nodes. -/
theorem IsSimple.pairwise_edges (simple : graph.IsSimple) :
    graph.edges.Pairwise fun edge other => graph.place edge.1 = graph.place other.1 →
      graph.place edge.2.1 ≠ graph.place other.2.1 := by
  rw [simple.edges_eq, List.pairwise_flatMap]
  constructor
  · intro node member
    have knows := simple.knows_of_mem member
    rw [onward, List.pairwise_flatMap]
    constructor
    · intro entry leads
      obtain ⟨-, -, held, single⟩ := simple.of_mem_neighbours knows (List.mem_filter.1 leads).1
      simp [single]
    · refine ((simple.pairwise_neighbours knows).filter _).imp ?_
      intro entry other apart edge leads another follows _
      obtain ⟨-, -, rfl⟩ := List.mem_map.1 leads
      obtain ⟨-, -, rfl⟩ := List.mem_map.1 follows
      exact apart
  · refine simple.pairwise_place.imp fun before edge leads other follows same => ?_
    rw [fst_of_mem_onward leads, fst_of_mem_onward follows] at same
    exact (before.ne same).elim

omit [LawfulNodeLabel L] in
/-- The link that an edge makes. -/
def Link.ofEdge (edge : L × L × Attributes K) : Link L K :=
  ⟨edge.1, edge.2.1, [(onlyKey, edge.2.2)]⟩

/-- Where all links lead from earlier nodes to later ones, they lead on from where they begin. -/
theorem IsSimple.onward_of_forward (simple : graph.IsSimple) {edges : List (L × L × Attributes K)}
    (links : graph.links = edges.map Link.ofEdge)
    (forward : ∀ edge ∈ edges, graph.place edge.1 < graph.place edge.2.1) {node : L}
    (knows : graph.Knows node) :
    graph.onward node = (edges.filter fun edge => graph.place edge.1 = graph.place node).map
      fun edge => (node, edge.2) := by
  have ends : ∀ edge ∈ edges, graph.Knows edge.1 ∧ graph.Knows edge.2.1 := fun edge member =>
    simple.knows (Link.ofEdge edge) (links ▸ List.mem_map_of_mem member)
  rw [onward, neighbours, links]
  clear links
  induction edges with
  | nil => rfl
  | cons edge rest ih =>
    rw [List.forall_mem_cons] at forward ends
    have later := ih forward.2 ends.2
    have starts : (edge.1 == node) = decide (graph.place edge.1 = graph.place node) :=
      Bool.eq_iff_iff.2 (by simp [simple.beq_iff_place ends.1.1 knows])
    have arrives : (edge.2.1 == node) = decide (graph.place edge.2.1 = graph.place node) :=
      Bool.eq_iff_iff.2 (by simp [simple.beq_iff_place ends.1.2 knows])
    simp only [List.map_cons, List.filterMap_cons, Link.ofEdge, starts, arrives, List.filter_cons]
    -- From where the edge arrives it would lead back, and so is not followed.
    by_cases here : graph.place edge.1 = graph.place node
    · have ahead := here ▸ forward.1
      simpa [here, ahead] using later
    · by_cases there : graph.place edge.2.1 = graph.place node
      · have behind := (there ▸ forward.1).not_gt
        simpa [here, there, behind] using later
      · simpa [here, there] using later

omit [LawfulNodeLabel L] in
/-- The node that a label is equal to, spelled as it is listed. -/
def spelled (graph : Graph L K) (label : L) : L := graph.nodes[graph.place label]?.getD label

omit [LawfulNodeLabel L] in
theorem Knows.spelled_eq {label : L} (knows : graph.Knows label) :
    graph.spelled label = graph.nodes.get ⟨graph.place label, knows.place_lt⟩ := by
  rw [spelled, List.getElem?_eq_getElem knows.place_lt, Option.getD_some]
  rfl

omit [LawfulNodeLabel L] in
theorem Knows.spelled_beq {label : L} (knows : graph.Knows label) :
    (graph.spelled label == label) = true := by
  rw [knows.spelled_eq]
  exact knows.get_place

theorem IsSimple.place_spelled (simple : graph.IsSimple) {label : L} (knows : graph.Knows label) :
    graph.place (graph.spelled label) = graph.place label := by
  rw [knows.spelled_eq]
  exact simple.place_getElem knows.place_lt

/-- A node of a graph is spelled as it is. -/
theorem IsSimple.spelled_of_mem (simple : graph.IsSimple) {node : L} (member : node ∈ graph.nodes) :
    graph.spelled node = node := by
  obtain ⟨position, inside, rfl⟩ := List.mem_iff_getElem.1 member
  rw [spelled, simple.place_getElem inside, List.getElem?_eq_getElem inside, Option.getD_some]

theorem IsSimple.knows_spelled (simple : graph.IsSimple) {label : L} (knows : graph.Knows label) :
    graph.Knows (graph.spelled label) := by
  rw [knows.spelled_eq]
  exact simple.knows_of_mem (List.get_mem _ _)

variable {M : Type}

/-- An edge under other attributes, its ends spelled as they are listed. -/
def restated (graph : Graph L K) (change : Attributes K → M) (edge : L × L × Attributes K) :
    L × L × M :=
  (edge.1, graph.spelled edge.2.1, change edge.2.2)

/-- The nodes of a graph with its edges as links, under other attributes. -/
def rebuilt (graph : Graph L K) (name : Datum) (change : Attributes K → Attributes M) :
    Graph L M where
  kind := .simple
  name := name
  nodes := graph.nodes
  links := (graph.edges.map (graph.restated change)).map Link.ofEdge

section Rebuilt

variable {name : Datum} {change : Attributes K → Attributes M}

/-- A restated edge leads from where it led from to where it led. -/
theorem IsSimple.of_mem_restated (simple : graph.IsSimple) {edge : L × L × Attributes M}
    (member : edge ∈ graph.edges.map (graph.restated change)) :
    graph.Knows edge.1 ∧ graph.Knows edge.2.1 ∧ graph.place edge.1 < graph.place edge.2.1 := by
  obtain ⟨edge, listed, rfl⟩ := List.mem_map.1 member
  obtain ⟨first, known, onward⟩ := simple.of_mem_edges listed
  exact ⟨simple.knows_of_mem first, simple.knows_spelled known, by
    rwa [restated, simple.place_spelled known]⟩

/-- No two restated edges join the same two nodes. -/
theorem IsSimple.pairwise_restated (simple : graph.IsSimple) :
    (graph.edges.map (graph.restated change)).Pairwise fun edge other =>
      graph.place edge.1 = graph.place other.1 → graph.place edge.2.1 ≠ graph.place other.2.1 := by
  refine List.pairwise_map.2 (simple.pairwise_edges.imp_of_mem ?_)
  intro edge other member also different
  rwa [restated, restated, simple.place_spelled (simple.of_mem_edges member).2.1,
    simple.place_spelled (simple.of_mem_edges also).2.1]

/-- The edges of a simple graph make a simple graph. -/
theorem IsSimple.rebuilt (simple : graph.IsSimple) : (graph.rebuilt name change).IsSimple where
  kind := rfl
  usable := simple.usable
  nodup := simple.nodup
  knows link member := by
    obtain ⟨edge, listed, rfl⟩ := List.mem_map.1 member
    obtain ⟨first, known, -⟩ := simple.of_mem_restated listed
    exact ⟨first, known⟩
  apart link member := by
    obtain ⟨edge, listed, rfl⟩ := List.mem_map.1 member
    obtain ⟨first, known, onward⟩ := simple.of_mem_restated listed
    exact Bool.eq_false_iff.2 fun same => onward.ne ((simple.beq_iff_place first known).1 same)
  distinct := by
    refine List.pairwise_map.2 (simple.pairwise_restated.imp_of_mem ?_)
    intro edge other member also different
    obtain ⟨first, known, onward⟩ := simple.of_mem_restated member
    obtain ⟨here, there, further⟩ := simple.of_mem_restated also
    refine Bool.eq_false_iff.2 fun joins => ?_
    -- Both edges lead onward, so that they cannot join the same nodes in opposite directions.
    rcases (simple.joins_iff_place ⟨first, known⟩ here there).1 joins with
      ⟨left, right⟩ | ⟨left, right⟩
    · exact different left right
    · have opposite := onward.trans (right ▸ further)
      exact (left ▸ opposite).false
  strand link member := by
    obtain ⟨edge, -, rfl⟩ := List.mem_map.1 member
    exact ⟨_, rfl⟩

/-- The edges of a rebuilt graph are those that it was built from. -/
theorem IsSimple.edges_rebuilt (simple : graph.IsSimple) :
    (graph.rebuilt name change).edges = graph.edges.map (graph.restated change) := by
  have built : (graph.rebuilt name change).IsSimple := simple.rebuilt
  have onward : ∀ node ∈ graph.nodes, (graph.rebuilt name change).onward node =
      (graph.onward node).map (graph.restated change) := by
    intro node member
    rw [built.onward_of_forward rfl
      (fun edge listed => (simple.of_mem_restated listed).2.2) (simple.knows_of_mem member),
      List.filter_map, List.map_map]
    -- An edge that begins at the node has it for its first end.
    change (graph.edges.filter fun edge => graph.place edge.1 = graph.place node).map _ = _
    rw [simple.filter_edges member]
    refine List.map_congr_left fun edge leads => ?_
    rw [← fst_of_mem_onward leads]
    rfl
  rw [built.edges_eq, simple.edges_eq, List.map_flatMap]
  exact List.flatMap_congr onward

end Rebuilt

end CuttingPlanes.Graph
