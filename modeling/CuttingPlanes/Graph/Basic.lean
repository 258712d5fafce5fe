import CuttingPlanes.Association
import CuttingPlanes.Datum.Entries
import CuttingPlanes.Scalar

/-! Graphs whose nodes and links keep the order in which they were made. -/

namespace CuttingPlanes

/-- Labels that can be the nodes of a graph. -/
class NodeLabel (L : Type) where
  ofNat : Nat → L
  /-- Whether two labels are equal. -/
  same : L → L → Bool
  /-- Refuses what cannot be a node. -/
  check : L → Except Fault Unit
  /-- The node that a member of a list of nodes stands for. -/
  listed : L → Except Fault L

namespace Datum

/-- Refuses values that change and the absent one. -/
def checkNode (label : Datum) : Except Fault Unit := do
  label.checkKey
  if label.isNothing then throw .missingNode

/-- A node by itself, or the first member of a pair whose second one holds entries. -/
def listedNode (label : Datum) : Except Fault Datum :=
  match label.checkKey with
  | .ok _ => .ok label
  | .error _ => do
      match ← label.members with
      | [node, extra] => do
          node.checkKey
          let _ ← extra.entries
          return node
      | parts =>
          if parts.length < 2 then throw (.tooFewToUnpack 2 parts.length)
          else throw (.tooManyToUnpack 2)

end Datum

/-- The equality of labels, where their type has none of its own. -/
instance (priority := 50) {L : Type} [NodeLabel L] : BEq L := ⟨NodeLabel.same⟩

instance : NodeLabel Datum where
  ofNat n := .int n
  same left right := left == right
  check := Datum.checkNode
  listed := Datum.listedNode

instance : NodeLabel Nat where
  ofNat := id
  same left right := left == right
  check _ := .ok ()
  listed := .ok

/-- Attributes by name. -/
abbrev Attributes (K : Type) := List (String × K)

/-- A connection of two nodes, spelled as when it was made. -/
structure Link (L K : Type) where
  left : L
  right : L
  /-- The attributes of each strand under the key that tells it from the others. -/
  strands : List (Datum × Attributes K)

/-- Which links a graph has. -/
inductive GraphKind where
  | simple
  | directed
  /-- Links may have several strands. -/
  | parallel
  deriving DecidableEq, Repr

/-- A graph: its nodes and links in the order in which they were made. -/
structure Graph (L K : Type) where
  kind : GraphKind
  name : Datum
  nodes : List L
  links : List (Link L K)

namespace Graph

variable {L K : Type}

/-- A graph without nodes. -/
def empty (kind : GraphKind) (name : Datum) : Graph L K := ⟨kind, name, [], []⟩

variable [NodeLabel L]

/-- Adds a node unless an equal one is there. -/
def addNode (graph : Graph L K) (node : L) : Except Fault (Graph L K) := do
  NodeLabel.check node
  return if graph.nodes.contains node then graph
    else { graph with nodes := graph.nodes ++ [node] }

/-- Adds the nodes that a list stands for. -/
def addNodes (graph : Graph L K) : List L → Except Fault (Graph L K)
  | [] => .ok graph
  | label :: rest => do
      let node ← NodeLabel.listed label
      (← graph.addNode node).addNodes rest

/-- Whether a link joins two nodes, in either direction. -/
def Link.joins (link : Link L K) (left right : L) : Bool :=
  (link.left == left && link.right == right) || (link.left == right && link.right == left)

/-- The key of the first strand where none is given, and of the only one. -/
def onlyKey : Datum := .int 0

/-- The first key from a number on that no strand has, within as many tries as are granted. -/
def freeKey (strands : List (Datum × Attributes K)) : (tries : Nat) → (key : Nat) → Datum
  | 0, key => .int key
  | tries + 1, key =>
      if Association.holds (.int key) strands then freeKey strands tries (key + 1) else .int key

/-- The key of a strand that is added without one: their number, or the next key that is free. -/
def newKey (strands : List (Datum × Attributes K)) : Datum :=
  freeKey strands strands.length strands.length

/-- Puts attributes on the strand of a key, which is a new one when no strand has the key. -/
def putStrand (key : Datum) (attributes : Attributes K) (strands : List (Datum × Attributes K)) :
    List (Datum × Attributes K) :=
  let held := (Association.find? key strands).getD []
  Association.insert key (Association.updated held attributes) strands

/-- Puts attributes on the link of two nodes: on the strand of a key, or on a new strand. -/
def attach (left right : L) (key : Option Datum) (attributes : Attributes K) :
    List (Link L K) → List (Link L K)
  | [] => [⟨left, right, putStrand (key.getD onlyKey) attributes []⟩]
  | link :: rest =>
      if Link.joins link left right then
        { link with
          strands := putStrand (key.getD (newKey link.strands)) attributes link.strands } :: rest
      else link :: attach left right key attributes rest

/-- Adds two nodes, the left one first, and a strand of the link between them. -/
def addStrand (graph : Graph L K) (left right : L) (key : Option Datum)
    (attributes : Attributes K) : Except Fault (Graph L K) := do
  let graph ← graph.addNode left
  let graph ← graph.addNode right
  if let some key := key then key.checkKey
  return { graph with links := attach left right key attributes graph.links }

/-- Adds two nodes and a link between them; only parallel links get a strand of their own. -/
def addEdge (graph : Graph L K) (left right : L) (attributes : Attributes K) :
    Except Fault (Graph L K) :=
  graph.addStrand left right (if graph.kind = .parallel then none else some onlyKey) attributes

/-- The words under which a graph refuses an attribute, because they stand for something else. -/
def reservedNames : GraphKind → List String
  | .parallel => ["self", "u_for_edge", "v_for_edge"]
  | _ => ["self", "u_of_edge", "v_of_edge"]

/-- How the addition of an edge is named where it is refused. -/
def additionName : GraphKind → String
  | .simple => "Graph.add_edge"
  | .directed => "DiGraph.add_edge"
  | .parallel => "MultiGraph.add_edge"

/-- An entry as an attribute. -/
def attributeOf (entry : Datum × Datum) : Except Fault (String × Datum) :=
  match entry.1 with
  | .text name => .ok (name, entry.2)
  | _ => .error .unnamedArgument

/-- The name of the attribute that holds the key of a parallel strand. -/
def keyName : String := "key"

/-- Adds an edge that entries describe: they name its attributes, and its key if it has one. -/
def addDescribed (graph : Graph L Datum) (left right : L) (entries : List (Datum × Datum)) :
    Except Fault (Graph L Datum) := do
  entries.forM fun entry => entry.1.checkKey
  let attributes ← (Association.ofPairs entries).mapM attributeOf
  let reserved := reservedNames graph.kind
  if let some taken := attributes.find? fun entry => reserved.contains entry.1 then
    throw (.takenArgument (additionName graph.kind) taken.1)
  if graph.kind = .parallel then
    let key := (Association.find? keyName attributes).bind fun key =>
      if key.isNothing then none else some key
    graph.addStrand left right key (attributes.filter fun entry => entry.1 != keyName)
  else graph.addEdge left right attributes

/-- The graph with some nodes and then some described edges added one by one. -/
def grown (graph : Graph L Datum) (nodes : List L) (edges : List (L × L × List (Datum × Datum))) :
    Except Fault (Graph L Datum) := do
  let graph ← nodes.foldlM addNode graph
  edges.foldlM (fun graph edge => graph.addDescribed edge.1 edge.2.1 edge.2.2) graph

/-- The neighbours of a node with the strands that lead to them, in the order of attachment. -/
def neighbours (graph : Graph L K) (node : L) : List (L × List (Datum × Attributes K)) :=
  graph.links.filterMap fun link =>
    if link.left == node then some (link.right, link.strands)
    else if link.right == node then some (link.left, link.strands)
    else none

/-- The edges at some nodes, without those that lead to a node already visited. -/
def edgesFrom (graph : Graph L K) : (visited : List L) → List L → List (L × L × Attributes K)
  | _, [] => []
  | visited, node :: rest =>
      let fresh := (graph.neighbours node).filter fun entry => !visited.contains entry.1
      (fresh.flatMap fun entry => entry.2.map fun strand => (node, entry.1, strand.2)) ++
        edgesFrom graph (node :: visited) rest

/-- The edges node by node, each of them once and from its earlier node. -/
def edges (graph : Graph L K) : List (L × L × Attributes K) :=
  graph.edgesFrom [] graph.nodes

/-- The position of a node. -/
def position? (graph : Graph L K) (node : L) : Option Nat :=
  graph.nodes.findIdx? (· == node)

end Graph

end CuttingPlanes
