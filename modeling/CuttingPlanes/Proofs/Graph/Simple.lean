import CuttingPlanes.Graph.Basic
import CuttingPlanes.Proofs.Association
import CuttingPlanes.Proofs.Datum.Key

/-! Graphs in which no node is linked to itself, and no two nodes are linked twice. -/

namespace CuttingPlanes

/-- Whether a label can be a node. -/
def NodeLabel.Usable {L : Type} [NodeLabel L] (label : L) : Prop := NodeLabel.check label = .ok ()

/-- Labels that can be nodes stand for themselves, and are equal when they have the same key. -/
class LawfulNodeLabel (L : Type) [NodeLabel L] : Prop where
  listed_eq {label : L} : NodeLabel.Usable label → NodeLabel.listed label = .ok label
  exists_key : ∃ (Key : Type) (key : L → Key), ∀ {left right : L}, NodeLabel.Usable left →
    NodeLabel.Usable right → ((left == right) = true ↔ key left = key right)

open NodeLabel (Usable)

/-- A value that can be a node can be a key. -/
theorem Datum.checkKey_of_usable {label : Datum} (usable : Usable label) :
    label.checkKey = .ok () := by
  cases checked : label.checkKey with
  | ok done => rfl
  | error fault =>
    simp [Usable, NodeLabel.check, checkNode, checked, bind, Except.bind] at usable

instance : LawfulNodeLabel Datum where
  listed_eq usable := by
    show Datum.listedNode _ = _
    rw [Datum.listedNode, Datum.checkKey_of_usable usable]
  exists_key := ⟨_, Datum.identity?, fun _ usable =>
    Datum.same_iff (Datum.checkKey_of_usable usable)⟩

instance : LawfulNodeLabel Nat where
  listed_eq _ := rfl
  exists_key := ⟨Nat, id, fun _ _ => beq_iff_eq⟩

section Label

variable {L : Type} [NodeLabel L] [LawfulNodeLabel L] {left middle right : L}

theorem NodeLabel.Usable.refl (usable : Usable left) : (left == left) = true := by
  obtain ⟨Key, key, same⟩ := LawfulNodeLabel.exists_key (L := L)
  exact (same usable usable).2 rfl

/-- Equality of nodes does not depend on which of them is named first. -/
theorem NodeLabel.Usable.comm (usable : Usable left) (also : Usable right) :
    (left == right) = (right == left) := by
  obtain ⟨Key, key, same⟩ := LawfulNodeLabel.exists_key (L := L)
  rw [Bool.eq_iff_iff, same usable also, same also usable, eq_comm]

/-- Nodes that are equal are equal to the same nodes. -/
theorem NodeLabel.Usable.congr (usable : Usable left) (also : Usable middle)
    (other : Usable right) (equal : (left == middle) = true) :
    (right == left) = (right == middle) := by
  obtain ⟨Key, key, same⟩ := LawfulNodeLabel.exists_key (L := L)
  rw [Bool.eq_iff_iff, same other usable, same other also, (same usable also).1 equal]

end Label

namespace Graph

variable {L K : Type} [NodeLabel L] {graph : Graph L K}

/-- Whether a label can be a node and is equal to one of a graph. -/
def Knows (graph : Graph L K) (label : L) : Prop :=
  Usable label ∧ ∃ node ∈ graph.nodes, (node == label) = true

/-- No node is linked to itself, and no two nodes are linked twice, in whichever direction. -/
structure IsSimple (graph : Graph L K) : Prop where
  kind : graph.kind = .simple
  usable : ∀ node ∈ graph.nodes, Usable node
  nodup : graph.nodes.Pairwise fun node other => (node == other) = false
  knows : ∀ link ∈ graph.links, graph.Knows link.left ∧ graph.Knows link.right
  apart : ∀ link ∈ graph.links, (link.left == link.right) = false
  distinct : graph.links.Pairwise fun link other => Link.joins link other.left other.right = false
  strand : ∀ link ∈ graph.links, ∃ attributes, link.strands = [(onlyKey, attributes)]

/-- The position of the node that a label is equal to, or the number of nodes if there is none. -/
def place (graph : Graph L K) (label : L) : Nat := graph.nodes.findIdx (· == label)

theorem place_eq (graph : Graph L K) (label : L) :
    (graph.position? label).getD graph.nodes.length = graph.place label := by
  rw [position?, place, List.findIdx?_eq_guard_findIdx_lt, Option.guard]
  split
  · rfl
  · rename_i beyond
    exact (not_lt.1 fun inside => beyond (decide_eq_true inside)).antisymm List.findIdx_le_length

theorem Knows.place_lt {label : L} (knows : graph.Knows label) :
    graph.place label < graph.nodes.length :=
  List.findIdx_lt_length.2 knows.2

/-- At the place of a label stands the node that it is equal to. -/
theorem Knows.get_place {label : L} (knows : graph.Knows label) :
    (graph.nodes.get ⟨graph.place label, knows.place_lt⟩ == label) = true :=
  @List.findIdx_getElem _ (· == label) graph.nodes knows.place_lt

variable [LawfulNodeLabel L]

/-- Equal labels have the same place. -/
theorem IsSimple.place_congr (simple : graph.IsSimple) {left right : L} (usable : Usable left)
    (also : Usable right) (equal : (left == right) = true) :
    graph.place left = graph.place right := by
  have same : ∀ node ∈ graph.nodes, (node == left) = (node == right) := fun node member =>
    usable.congr also (simple.usable node member) equal
  rw [place, place]
  generalize graph.nodes = nodes at same
  induction nodes with
  | nil => rfl
  | cons node rest ih =>
    rw [List.forall_mem_cons] at same
    rw [List.findIdx_cons, List.findIdx_cons, same.1, ih same.2]

/-- Nodes of a graph are equal when they have the same place. -/
theorem IsSimple.beq_iff_place (simple : graph.IsSimple) {left right : L}
    (knows : graph.Knows left) (also : graph.Knows right) :
    (left == right) = true ↔ graph.place left = graph.place right := by
  refine ⟨simple.place_congr knows.1 also.1, fun same => ?_⟩
  have first := knows.get_place
  have second := also.get_place
  have usable := simple.usable _ (List.get_mem graph.nodes ⟨_, knows.place_lt⟩)
  simp only [same] at first usable
  rwa [usable.comm knows.1, usable.congr also.1 knows.1 second] at first

/-- A node stands at its own place. -/
theorem IsSimple.place_getElem (simple : graph.IsSimple) {position : Nat}
    (inside : position < graph.nodes.length) :
    graph.place graph.nodes[position] = position := by
  refine (List.findIdx_eq inside).2 ⟨(simple.usable _ (List.getElem_mem inside)).refl, ?_⟩
  exact fun earlier before => List.pairwise_iff_getElem.1 simple.nodup _ _ _ inside before

/-- A link joins two nodes when it leads from the place of one to the place of the other. -/
theorem IsSimple.joins_iff_place (simple : graph.IsSimple) {M : Type} {link : Link L M}
    {left right : L}
    (ends : graph.Knows link.left ∧ graph.Knows link.right) (knows : graph.Knows left)
    (also : graph.Knows right) :
    Link.joins link left right = true ↔
      (graph.place link.left = graph.place left ∧ graph.place link.right = graph.place right) ∨
      (graph.place link.left = graph.place right ∧ graph.place link.right = graph.place left) := by
  rw [Link.joins, Bool.or_eq_true, Bool.and_eq_true, Bool.and_eq_true,
    simple.beq_iff_place ends.1 knows, simple.beq_iff_place ends.2 also,
    simple.beq_iff_place ends.1 also, simple.beq_iff_place ends.2 knows]

section Growth

omit [LawfulNodeLabel L] in
/-- A graph without nodes is simple. -/
theorem isSimple_empty (name : Datum) : (empty .simple name : Graph L K).IsSimple :=
  ⟨rfl, by simp [empty], by simp [empty], by simp [empty], by simp [empty], by simp [empty],
    by simp [empty]⟩

/-- A graph with a node more is simple, and knows what it knew before beside the node. -/
theorem IsSimple.addNode (simple : graph.IsSimple) {node : L} {after : Graph L K}
    (added : graph.addNode node = .ok after) :
    after.IsSimple ∧ after.Knows node ∧ after.links = graph.links ∧
      ∀ label, graph.Knows label → after.Knows label := by
  have usable : Usable node := by
    cases checked : NodeLabel.check node with
    | ok done => exact checked
    | error fault => simp [Graph.addNode, checked, bind, Except.bind] at added
  simp only [Graph.addNode, show NodeLabel.check node = .ok () from usable, bind, Except.bind, pure,
    Except.pure] at added
  -- A node is only put behind the others if none of them is equal to it.
  split at added
  case isTrue known =>
    obtain rfl := Except.ok.inj added
    rw [List.contains_eq_any_beq] at known
    obtain ⟨other, member, equal⟩ := List.any_eq_true.1 known
    refine ⟨simple, ⟨usable, other, member, ?_⟩, rfl, fun _ knows => knows⟩
    rwa [(simple.usable other member).comm usable]
  case isFalse unknown =>
    obtain rfl := Except.ok.inj added
    have keeps : ∀ label, graph.Knows label →
        Knows { graph with nodes := graph.nodes ++ [node] } label :=
      fun label knows => ⟨knows.1, knows.2.imp fun other found =>
        ⟨List.mem_append_left _ found.1, found.2⟩⟩
    refine ⟨⟨simple.kind, ?_, ?_, ?_, simple.apart, simple.distinct, simple.strand⟩, ?_, rfl, keeps⟩
    · simpa [or_imp, forall_and] using ⟨simple.usable, usable⟩
    · refine List.pairwise_append.2 ⟨simple.nodup, List.pairwise_singleton _ _, ?_⟩
      intro other member last new
      obtain rfl := List.mem_singleton.1 new
      rw [(simple.usable other member).comm usable, ← Bool.not_eq_true]
      rw [List.contains_eq_any_beq] at unknown
      exact fun equal => unknown (List.any_eq_true.2 ⟨other, member, equal⟩)
    · exact fun link member => (simple.knows link member).imp (keeps _) (keeps _)
    · exact ⟨usable, node, List.mem_append_right _ (List.mem_singleton_self node), usable.refl⟩

omit [LawfulNodeLabel L] in
/-- A link that no other one doubles goes behind them. -/
theorem attach_of_forall {left right : L} {key : Option Datum} {attributes : Attributes K}
    {links : List (Link L K)} (none : ∀ link ∈ links, Link.joins link left right = false) :
    attach left right key attributes links =
      links ++ [⟨left, right, putStrand (key.getD onlyKey) attributes []⟩] := by
  induction links with
  | nil => rfl
  | cons link rest ih =>
    rw [List.forall_mem_cons] at none
    rw [attach, if_neg (by simp [none.1]), ih none.2, List.cons_append]

omit [LawfulNodeLabel L] in
/-- A link that joins the two nodes already keeps its ends. -/
theorem attach_of_exists {left right : L} (key : Option Datum) (attributes : Attributes K)
    {links : List (Link L K)} (some : ∃ link ∈ links, Link.joins link left right = true) :
    ∃ before link behind, links = before ++ link :: behind ∧
      attach left right key attributes links = before ++ { link with
        strands := putStrand (key.getD (newKey link.strands)) attributes link.strands } ::
          behind := by
  induction links with
  | nil => simp at some
  | cons link rest ih =>
    rw [attach]
    split
    case isTrue => exact ⟨[], link, rest, rfl, rfl⟩
    case isFalse passed =>
      -- The first link is passed over, so that the one that joins them is among the others.
      obtain ⟨other, member, joins⟩ := some
      have behind : other ∈ rest :=
        (List.mem_cons.1 member).resolve_left fun same => passed (same ▸ joins)
      obtain ⟨before, found, later, split, attached⟩ := ih ⟨other, behind, joins⟩
      exact ⟨link :: before, found, later, by rw [split]; rfl, by rw [attached]; rfl⟩

/-- A node that a graph knows is not added again. -/
theorem addNode_of_knows (usable : ∀ node ∈ graph.nodes, Usable node) {label : L}
    (knows : graph.Knows label) : graph.addNode label = .ok graph := by
  obtain ⟨own, node, member, equal⟩ := knows
  have known : graph.nodes.contains label = true := by
    rw [List.contains_eq_any_beq, List.any_eq_true]
    exact ⟨node, member, own.comm (usable node member) ▸ equal⟩
  simp only [addNode, show NodeLabel.check label = .ok () from own, bind, Except.bind, pure,
    Except.pure]
  rw [if_pos known]

/-- An edge between two nodes of a graph only changes its links. -/
theorem addEdge_of_knows (kind : graph.kind = .simple) (usable : ∀ node ∈ graph.nodes, Usable node)
    {left right : L} (knows : graph.Knows left) (also : graph.Knows right)
    (attributes : Attributes K) :
    graph.addEdge left right attributes = .ok { graph with
      links := attach left right (some onlyKey) attributes graph.links } := by
  simp [addEdge, addStrand, kind, addNode_of_knows usable knows, addNode_of_knows usable also,
    bind, Except.bind, pure, Except.pure, Datum.checkKey, onlyKey]

/-- An edge between two nodes of a graph that nothing joins becomes its last link. -/
theorem addEdge_of_forall (kind : graph.kind = .simple) (usable : ∀ node ∈ graph.nodes, Usable node)
    {left right : L} (knows : graph.Knows left) (also : graph.Knows right)
    (none : ∀ link ∈ graph.links, Link.joins link left right = false)
    (attributes : Attributes K) :
    graph.addEdge left right attributes = .ok { graph with
      links := graph.links ++ [⟨left, right, putStrand onlyKey attributes []⟩] } := by
  rw [addEdge_of_knows kind usable knows also, attach_of_forall none, Option.getD_some]

/-- A graph with a link more between two nodes is simple. -/
theorem IsSimple.addEdge (simple : graph.IsSimple) {left right : L} {attributes : Attributes K}
    (apart : (left == right) = false) {after : Graph L K}
    (added : graph.addEdge left right attributes = .ok after) : after.IsSimple := by
  simp only [Graph.addEdge, simple.kind, addStrand] at added
  cases first : graph.addNode left with
  | error fault => simp [first, bind, Except.bind] at added
  | ok middle =>
  cases second : middle.addNode right with
  | error fault => simp [first, second, bind, Except.bind] at added
  | ok last =>
  obtain ⟨simple, knows, -, -⟩ := simple.addNode first
  obtain ⟨simple, also, -, keeps⟩ := simple.addNode second
  have knows := keeps left knows
  obtain rfl : { last with links := attach left right (some onlyKey) attributes last.links } =
      after := by
    simpa [first, second, bind, Except.bind, pure, Except.pure, Datum.checkKey, onlyKey]
      using added
  by_cases joined : ∃ link ∈ last.links, Link.joins link left right = true
  · obtain ⟨before, link, behind, split, attached⟩ :=
      attach_of_exists (some onlyKey) attributes joined
    obtain ⟨kind, usable, nodup, ends, loops, distinct, strand⟩ := simple
    rw [split] at ends loops distinct strand
    -- Only the attributes of the link change, and they stay on its only strand.
    obtain ⟨held, single⟩ := strand link (by simp)
    rw [attached]
    refine ⟨kind, usable, nodup, ?_, ?_, ?_, ?_⟩
    · simpa [or_imp, forall_and, Knows] using ends
    · simpa [or_imp, forall_and] using loops
    · simpa [List.pairwise_append, Link.joins] using distinct
    · simp only [List.mem_append, List.mem_cons, or_imp, forall_and, forall_eq] at strand ⊢
      refine ⟨strand.1, ⟨Association.updated held attributes, ?_⟩, strand.2.2⟩
      rw [single]
      rfl
  · have none : ∀ link ∈ last.links, Link.joins link left right = false := by simpa using joined
    rw [attach_of_forall none]
    refine ⟨simple.kind, simple.usable, simple.nodup, ?_, ?_, ?_, ?_⟩
    · exact List.forall_mem_append.2 ⟨simple.knows, List.forall_mem_singleton.2 ⟨knows, also⟩⟩
    · exact List.forall_mem_append.2 ⟨simple.apart, List.forall_mem_singleton.2 apart⟩
    · refine List.pairwise_append.2 ⟨simple.distinct, List.pairwise_singleton _ _, ?_⟩
      exact fun link member => List.forall_mem_singleton.2 (none link member)
    · exact List.forall_mem_append.2 ⟨simple.strand, List.forall_mem_singleton.2 ⟨_, rfl⟩⟩

end Growth

end Graph

end CuttingPlanes
