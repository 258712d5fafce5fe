import CuttingPlanes.Proofs.Graph.Rebuild
import CuttingPlanes.Proofs.Outcome
import CuttingPlanes.Spanning.Conversion
import Mathlib.Data.List.Forall2

/-! Problems of graphs, the graphs of these problems, and the problems of those graphs. -/

namespace CuttingPlanes.Spanning

open CuttingPlanes.Graph NodeLabel

variable {ι L : Type} [Ordinal ι] [NodeLabel L] {graph : Graph L Datum} {key default name : Datum}

/-- Positions among some things that can be looked up again. -/
def Addressable (ι : Type) [Ordinal ι] (count : Nat) : Prop :=
  ∀ position < count, Ordinal.place (Ordinal.ofNat position : ι) = .ok (position : Int)

/-- Counted references can be looked up however many they are. -/
theorem addressable_nat (count : Nat) : Addressable Nat count := fun _ _ => rfl

/-- References that are values can be looked up as far as positions go. -/
theorem addressable_datum {count : Nat} (few : count ≤ Datum.greatestPosition) :
    Addressable Datum count := by
  intro position inside
  have within : Datum.isPosition position = true := by
    simp only [Datum.isPosition, Bool.and_eq_true, decide_eq_true_eq]
    omega
  simp [Ordinal.place, Ordinal.ofNat, within]

/-- A position that can be looked up leads to the member there. -/
theorem itemAt_ofNat {α : Type} {items : List α} {position : Nat}
    (addressed : Ordinal.place (Ordinal.ofNat position : ι) = .ok (position : Int))
    (inside : position < items.length) :
    itemAt items (Ordinal.ofNat position : ι) = .ok items[position] := by
  have nonneg : ¬(position : Int) < 0 := by omega
  simp [itemAt, addressed, nonneg, inside, bind, Except.bind, pure, Except.pure]

/-- A cost that is read is a real, and is read as itself. -/
theorem real_of_costOf {attributes : Attributes Datum} {cost : Datum}
    (read : costOf key default attributes = .ok cost) : Scalar.real cost = .ok cost := by
  cases found : attribute? key attributes with
  | error fault => simp [costOf, found, bind, Except.bind] at read
  | ok value =>
    simp only [costOf, found, bind, Except.bind, Scalar.real, Functor.map, Except.map] at read
    split at read
    · cases read
    · obtain rfl := Except.ok.inj read
      rfl

/-- The cost that the attributes of an edge give, where they give one. -/
def price (key default : Datum) (attributes : Attributes Datum) : Datum :=
  (costOf key default attributes).toOption.getD default

theorem price_eq {attributes : Attributes Datum} {cost : Datum}
    (read : costOf key default attributes = .ok cost) : price key default attributes = cost := by
  rw [price, read]
  rfl

/-- The edge of a problem that an edge of a graph becomes. -/
def edgeOf (ι : Type) [Ordinal ι] (graph : Graph L Datum) (cost : Attributes Datum → Datum)
    (edge : L × L × Attributes Datum) : Edge ι Datum :=
  ⟨Ordinal.ofNat (graph.place edge.1), Ordinal.ofNat (graph.place edge.2.1), cost edge.2.2⟩

/-- The cost of an edge of a graph, where it can be read. -/
def edgeRead (ι : Type) [Ordinal ι] (graph : Graph L Datum) (key default : Datum)
    (edge : L × L × Attributes Datum) : Except Fault (Edge ι Datum) := do
  return ⟨reference graph edge.1, reference graph edge.2.1, ← costOf key default edge.2.2⟩

theorem edgeRead_of_ok {edge : L × L × Attributes Datum} {cost : Datum}
    (priced : costOf key default edge.2.2 = .ok cost) :
    edgeRead ι graph key default edge = .ok (edgeOf ι graph (price key default) edge) := by
  simp [edgeRead, edgeOf, reference, place_eq, price_eq priced, priced, bind, Except.bind, pure,
    Except.pure]

/-- Edges that all give costs become edges of a problem. -/
theorem mapM_edgeRead {edges : List (L × L × Attributes Datum)}
    (costs : ∀ edge ∈ edges, ∃ cost, costOf key default edge.2.2 = .ok cost) :
    edges.mapM (edgeRead ι graph key default) =
      .ok (edges.map (edgeOf ι graph (price key default))) := by
  induction edges with
  | nil => rfl
  | cons edge rest ih =>
    obtain ⟨⟨cost, priced⟩, others⟩ := List.forall_mem_cons.1 costs
    rw [List.mapM_cons, edgeRead_of_ok priced, ih others]
    rfl

/-- Where edges become edges of a problem, all of them give costs. -/
theorem exists_cost_of_mapM {edges : List (L × L × Attributes Datum)} {read : List (Edge ι Datum)}
    (made : edges.mapM (edgeRead ι graph key default) = .ok read) :
    ∀ edge ∈ edges, ∃ cost, costOf key default edge.2.2 = .ok cost := by
  induction edges generalizing read with
  | nil => simp
  | cons edge rest ih =>
    rw [List.mapM_cons] at made
    cases priced : costOf key default edge.2.2 with
    | error fault => simp [edgeRead, priced, bind, Except.bind] at made
    | ok cost =>
      rw [edgeRead_of_ok priced] at made
      cases others : rest.mapM (edgeRead ι graph key default) with
      | error fault => simp [others, bind, Except.bind] at made
      | ok found => exact List.forall_mem_cons.2 ⟨⟨cost, priced⟩, ih others⟩

/-- What a graph needs in order to have a problem. -/
theorem ofGraph_eq (directed : graph.kind ≠ .directed) :
    Problem.ofGraph graph key default name = (do
      let edges ← graph.edges.mapM (edgeRead ι graph key default)
      Problem.make (Ordinal.ofNat graph.nodes.length) edges (some graph.nodes)
        (chosenName name graph.name) : Except Fault (Problem Datum ι L)) := by
  rw [Problem.ofGraph, if_neg directed]
  rfl

/-- The problem of an undirected graph, all edges of which give costs, is made of its parts. -/
theorem ofGraph_of_costs (directed : graph.kind ≠ .directed)
    (costs : ∀ edge ∈ graph.edges, ∃ cost, costOf key default edge.2.2 = .ok cost) :
    Problem.ofGraph graph key default name =
      Problem.make (Ordinal.ofNat graph.nodes.length : ι)
        (graph.edges.map (edgeOf ι graph (price key default))) (some graph.nodes)
        (chosenName name graph.name) := by
  rw [ofGraph_eq directed, mapM_edgeRead costs]
  rfl

/-- Where a graph has a problem, all of its edges give costs. -/
theorem exists_cost_of_ofGraph (directed : graph.kind ≠ .directed) {problem : Problem Datum ι L}
    (made : Problem.ofGraph graph key default name = .ok problem) :
    ∀ edge ∈ graph.edges, ∃ cost, costOf key default edge.2.2 = .ok cost := by
  rw [ofGraph_eq directed] at made
  cases read : graph.edges.mapM (edgeRead ι graph key default) with
  | error fault => simp [read, bind, Except.bind] at made
  | ok edges => exact exists_cost_of_mapM read

/-- A problem that is made consists of what it is made of, with a list of labels. -/
theorem exists_eq_of_make {K : Type} {size : ι} {edges : List (Edge ι K)}
    {labels : Option (List L)} {problem : Problem K ι L}
    (made : Problem.make size edges labels name = .ok problem) :
    ∃ listed, problem = ⟨size, edges, .listed listed, name⟩ ∧
      ∀ given, labels = some given → listed = given := by
  rw [Problem.make] at made
  obtain ⟨-, -, made⟩ := bind_eq_ok.1 made
  obtain ⟨-, -, made⟩ := bind_eq_ok.1 made
  -- Labels that are given are taken as they are.
  cases labels with
  | none =>
    obtain ⟨listed, -, made⟩ := bind_eq_ok.1 made
    obtain ⟨-, -, made⟩ := bind_eq_ok.1 made
    exact ⟨listed, (Except.ok.inj made).symm, nofun⟩
  | some given =>
    obtain ⟨listed, taken, made⟩ := bind_eq_ok.1 made
    obtain rfl := Except.ok.inj taken
    obtain ⟨-, -, made⟩ := bind_eq_ok.1 made
    exact ⟨given, (Except.ok.inj made).symm, fun _ same => Option.some.inj same⟩

/-- A problem that is made of labels has these. -/
theorem eq_of_make {size : ι} {edges : List (Edge ι Datum)} {labels : List L}
    {problem : Problem Datum ι L}
    (made : Problem.make size edges (some labels) name = .ok problem) :
    problem = ⟨size, edges, .listed labels, name⟩ := by
  obtain ⟨listed, rfl, given⟩ := exists_eq_of_make made
  rw [given labels rfl]

variable [LawfulNodeLabel L]

/-- Nodes that are different from each other are added as they are. -/
theorem addNodes_of_pairwise {K : Type} {before : Graph L K} {labels : List L}
    (usable : ∀ label ∈ before.nodes ++ labels, Usable label)
    (different : (before.nodes ++ labels).Pairwise fun label other => (label == other) = false) :
    before.addNodes labels = .ok { before with nodes := before.nodes ++ labels } := by
  induction labels generalizing before with
  | nil => simp [addNodes]
  | cons label rest ih =>
    have own : Usable label := usable label (by simp)
    have fresh : before.nodes.contains label = false := by
      rw [List.contains_eq_any_beq, List.any_eq_false]
      intro node member
      rw [own.comm (usable node (by simp [member])), Bool.not_eq_true]
      exact (List.pairwise_append.1 different).2.2 node member label List.mem_cons_self
    have added : before.addNode label = .ok { before with nodes := before.nodes ++ [label] } := by
      simp [addNode, show NodeLabel.check label = .ok () from own, fresh, bind, Except.bind, pure,
        Except.pure]
    have later := @ih { before with nodes := before.nodes ++ [label] } (by simpa using usable)
      (by simpa using different)
    simp only [addNodes, LawfulNodeLabel.listed_eq own, added, bind, Except.bind]
    rw [later]
    simp

/-- An edge of a problem that reads the ends and has the cost of a link. -/
structure Describes (labels : List L) (edge : Edge ι Datum) (link : Link L Datum) : Prop where
  left : itemAt labels edge.left = .ok link.left
  right : itemAt labels edge.right = .ok link.right
  strands : link.strands = [(onlyKey, [(costName, edge.cost)])]

/-- Edges between labelled nodes that nothing else joins become links, in their order. -/
theorem addLabelled_of_pairwise {labels : List L} {before : Graph L Datum}
    (kind : before.kind = .simple) (usable : ∀ node ∈ before.nodes, Usable node)
    {edges : List (Edge ι Datum)} {links : List (Link L Datum)}
    (described : List.Forall₂ (Describes labels) edges links)
    (knows : ∀ link ∈ links, before.Knows link.left ∧ before.Knows link.right)
    (distinct : (before.links ++ links).Pairwise fun link other =>
      Link.joins link other.left other.right = false) :
    addLabelled (.listed labels) before edges =
      .ok { before with links := before.links ++ links } := by
  -- Every link goes behind those that are there.
  induction described generalizing before with
  | nil => simp [addLabelled]
  | @cons edge link edges links read rest ih =>
    rw [List.forall_mem_cons] at knows
    have none : ∀ other ∈ before.links, Link.joins other link.left link.right = false :=
      fun other member => (List.pairwise_append.1 distinct).2.2 other member link
        List.mem_cons_self
    have new : (⟨link.left, link.right, putStrand onlyKey [(costName, edge.cost)] []⟩ :
        Link L Datum) = link := by
      rw [show putStrand onlyKey [(costName, edge.cost)] [] = link.strands from
        read.strands.symm]
    have added := addEdge_of_forall kind usable knows.1.1 knows.1.2 none [(costName, edge.cost)]
    rw [new] at added
    have later := @ih { before with links := before.links ++ [link] } kind usable knows.2
      (by simpa using distinct)
    simp only [addLabelled, Labels.labelAt, read.left, read.right, added, bind, Except.bind]
    rw [later]
    simp

/-- The graph of a problem that was made of a simple graph is this graph under the costs read. -/
theorem toGraph_of_edges (simple : graph.IsSimple) (addressed : Addressable ι graph.nodes.length)
    (cost : Attributes Datum → Datum) (size : ι) (name : Datum) :
    (⟨size, graph.edges.map (edgeOf ι graph cost), .listed graph.nodes, name⟩ :
        Problem Datum ι L).toGraph =
      .ok (graph.rebuilt (if name.countsTrue then name else .text "") fun attributes =>
        [(costName, cost attributes)]) := by
  have described : List.Forall₂ (Describes graph.nodes)
      (graph.edges.map (edgeOf ι graph cost))
      ((graph.edges.map (graph.restated fun attributes => [(costName, cost attributes)])).map
        Link.ofEdge) := by
    rw [List.forall₂_map_left_iff, List.map_map, List.forall₂_map_right_iff, List.forall₂_same]
    intro edge member
    obtain ⟨listed, known, -⟩ := simple.of_mem_edges member
    have reads : ∀ label, graph.Knows label →
        itemAt graph.nodes (Ordinal.ofNat (graph.place label) : ι) = .ok (graph.spelled label) :=
      fun label knows => by
        rw [itemAt_ofNat (addressed _ knows.place_lt) knows.place_lt, knows.spelled_eq]
        rfl
    refine ⟨?_, reads _ known, rfl⟩
    have first := reads _ (simple.knows_of_mem listed)
    rwa [simple.spelled_of_mem listed] at first
  simp only [Problem.toGraph]
  generalize (if name.countsTrue then name else .text "") = name
  let bare : Graph L Datum := ⟨.simple, name, graph.nodes, []⟩
  have nodes : (Graph.empty .simple name : Graph L Datum).addNodes graph.nodes = .ok bare :=
    addNodes_of_pairwise (by simpa [Graph.empty] using simple.usable)
      (by simpa [Graph.empty] using simple.nodup)
  have built : (graph.rebuilt name fun attributes => [(costName, cost attributes)]).IsSimple :=
    simple.rebuilt
  have linked := addLabelled_of_pairwise (show bare.kind = .simple from rfl) simple.usable
    described built.knows built.distinct
  simp only [graphOf, Labels.nodes, nodes, bind, Except.bind]
  exact linked

/-- A rebuilt graph makes a problem of the same edges, where their costs are real. -/
theorem ofGraph_rebuilt (simple : graph.IsSimple) {cost : Attributes Datum → Datum}
    (real : ∀ edge ∈ graph.edges, Scalar.real (cost edge.2.2) = .ok (cost edge.2.2))
    (held given default : Datum) :
    Problem.ofGraph (graph.rebuilt held fun attributes => [(costName, cost attributes)])
        (.text costName) default given =
      Problem.make (Ordinal.ofNat graph.nodes.length : ι) (graph.edges.map (edgeOf ι graph cost))
        (some graph.nodes) (chosenName given held) := by
  have read : ∀ edge ∈ graph.edges, costOf (.text costName) default
      [(costName, cost edge.2.2)] = .ok (cost edge.2.2) := real
  have edges : (graph.edges.map (graph.restated fun attributes =>
      [(costName, cost attributes)])).map (edgeOf ι (graph.rebuilt held fun attributes =>
        [(costName, cost attributes)]) (price (.text costName) default)) =
      graph.edges.map (edgeOf ι graph cost) := by
    rw [List.map_map]
    refine List.map_congr_left fun edge member => ?_
    -- The nodes have kept their places.
    have place : (graph.rebuilt held fun attributes => [(costName, cost attributes)]).place
        (graph.spelled edge.2.1) = graph.place edge.2.1 :=
      simple.place_spelled (simple.of_mem_edges member).2.1
    simp only [Function.comp_apply, edgeOf, restated, place, price_eq (read edge member)]
    rfl
  rw [ofGraph_of_costs (by simp [Graph.rebuilt]), simple.edges_rebuilt, edges]
  · rfl
  · rw [simple.edges_rebuilt, List.forall_mem_map]
    exact fun edge member => ⟨_, read edge member⟩

/-- A name that was chosen is chosen again from a graph that holds it, or holds an empty text. -/
theorem chosenName_idem (given held : Datum) :
    chosenName .nothing (if (chosenName given held).countsTrue then chosenName given held
      else .text "") = chosenName given held := by
  unfold chosenName
  split_ifs <;> simp_all [Datum.countsTrue]

/--
The graph of a problem has the nodes and edges of the graph that the problem was made of.

Each edge leads from the same node, to an equal one, with the cost that was read for it, and the
graph makes the same problem again.
-/
theorem ofGraph_toGraph (simple : graph.IsSimple)
    (addressed : Addressable ι graph.nodes.length) {problem : Problem Datum ι L}
    (made : Problem.ofGraph graph key default name = .ok problem) :
    ∃ again, problem.toGraph = .ok again ∧ again.IsSimple ∧ again.nodes = graph.nodes ∧
      List.Forall₂ (fun edge other => other.1 = edge.1 ∧ (other.2.1 == edge.2.1) = true ∧
        ∃ cost, costOf key default edge.2.2 = .ok cost ∧ other.2.2 = [(costName, cost)])
        graph.edges again.edges ∧
      Problem.ofGraph again (.text costName) (.float 1) .nothing = .ok problem := by
  have directed : graph.kind ≠ .directed := by simp [simple.kind]
  have costs := exists_cost_of_ofGraph directed made
  rw [ofGraph_of_costs directed costs] at made
  obtain rfl := eq_of_make made
  refine ⟨_, toGraph_of_edges simple addressed _ _ _, simple.rebuilt, rfl, ?_, ?_⟩
  · rw [simple.edges_rebuilt, List.forall₂_map_right_iff, List.forall₂_same]
    intro edge member
    obtain ⟨cost, priced⟩ := costs edge member
    refine ⟨rfl, (simple.of_mem_edges member).2.1.spelled_beq, cost, priced, ?_⟩
    rw [restated, price_eq priced]
  · rw [ofGraph_rebuilt simple, chosenName_idem, made]
    intro edge member
    obtain ⟨cost, priced⟩ := costs edge member
    rw [price_eq priced]
    exact real_of_costOf priced

/-- Three nodes that are joined to each other, one of the edges being without a cost. -/
def triangle : Graph Datum Datum where
  kind := .simple
  name := .text "triangle"
  nodes := [.text "b", .text "c", .text "a"]
  links :=
    [⟨.text "b", .text "c", [(onlyKey, [("length", .float 2.5)])]⟩,
      ⟨.text "a", .text "b", [(onlyKey, [])]⟩,
      ⟨.text "c", .text "a", [(onlyKey, [("length", .float 0.5)])]⟩]

/-- The triangle is what its edges make of no nodes, one after another. -/
theorem isSimple_triangle : triangle.IsSimple := by
  have first := (isSimple_empty (.text "triangle")).addEdge (by decide) (show Graph.addEdge _
    (.text "b") (.text "c") [("length", .float 2.5)] = .ok (_ : Graph Datum Datum) from rfl)
  have second := first.addEdge (by decide) (show Graph.addEdge _ (.text "a") (.text "b") [] =
    .ok _ from rfl)
  exact second.addEdge (by decide) (show Graph.addEdge _ (.text "c") (.text "a")
    [("length", .float 0.5)] = .ok _ from rfl)

/-- The problem of the triangle, where edges without a length cost four. -/
def triangleProblem : Problem Datum Datum Datum where
  size := .int 3
  edges :=
    [⟨.int 0, .int 1, .float 2.5⟩, ⟨.int 0, .int 2, .float 4⟩, ⟨.int 1, .int 2, .float 0.5⟩]
  labels := .listed triangle.nodes
  name := .text "triangle"

/-- The triangle makes its problem, and the graph of the problem makes it again. -/
theorem ofGraph_toGraph_triangle :
    Problem.ofGraph triangle (.text "length") (.float 4) .nothing = .ok triangleProblem ∧
      ∃ again, triangleProblem.toGraph = .ok again ∧ again.nodes = triangle.nodes ∧
        Problem.ofGraph again (.text costName) (.float 1) .nothing = .ok triangleProblem := by
  have made : Problem.ofGraph triangle (.text "length") (.float 4) .nothing =
      .ok triangleProblem := rfl
  obtain ⟨again, given, -, nodes, -, same⟩ :=
    ofGraph_toGraph isSimple_triangle (addressable_datum (by decide)) made
  exact ⟨made, again, given, nodes, same⟩

end CuttingPlanes.Spanning
