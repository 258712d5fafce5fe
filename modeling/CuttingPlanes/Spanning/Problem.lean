import CuttingPlanes.Graph.Basic

/-! Spanning-tree problems: nodes counted from zero, edges with costs, and labels for the nodes. -/

namespace CuttingPlanes.Spanning

/-- An edge between two nodes. -/
structure Edge (ι K : Type) where
  left : ι
  right : ι
  cost : K

/-- Labels for the nodes. -/
inductive Labels (L : Type) where
  | listed (labels : List L)
  /-- The characters of a text. -/
  | spelled (characters : List L)
  /-- An object: its names are the nodes, and an edge looks its ends up among the entries. -/
  | keyed (names : List L) (entries : List (String × L))

namespace Labels

variable {ι L : Type} [Ordinal ι]

/-- The labels of all nodes. -/
def nodes : Labels L → List L
  | listed labels => labels
  | spelled characters => characters
  | keyed names _ => names

/-- The character at a reference; a text says in its own words that there is none. -/
def characterAt (characters : List L) (reference : ι) : Except Fault L :=
  match itemAt characters reference with
  | .error .outOfRange => .error .outOfTextRange
  | .error (.notAPosition kind) => .error (.notATextPosition kind)
  | found => found

/-- The entry that a reference looks up. -/
def entryAt (entries : List (String × L)) (reference : ι) : Except Fault L := do
  let name ← Ordinal.entryName reference
  match entries.lookup name with
  | some label => return label
  | none => throw (.missingKey (Text.quoted name))

/-- The label that a reference stands for. -/
def labelAt (labels : Labels L) (reference : ι) : Except Fault L :=
  match labels with
  | listed labels => itemAt labels reference
  | spelled characters => characterAt characters reference
  | keyed _ entries => entryAt entries reference

/-- The labels that a value holds. -/
def ofDatum : Datum → Except Fault (Labels Datum)
  | .object entries => .ok (keyed (entries.map fun entry => .text entry.1) entries)
  | value => do
      let _ ← value.length
      let labels ← value.members
      return if let .text _ := value then spelled labels else listed labels

end Labels

/-- A problem; several edges may join the same nodes. -/
structure Problem (K ι L : Type) where
  /-- The number of nodes. -/
  size : ι
  edges : List (Edge ι K)
  /-- A label for every node. -/
  labels : Labels L
  name : Datum

namespace Problem

variable {K ι L : Type} [Ordinal ι]

/-- Refuses a count below one. -/
def checkSize (size : ι) : Except Fault Unit := do
  if ← Ordinal.order .less size (Ordinal.ofNat 1) then throw .noNodes

/-- Whether a reference names one of the nodes. -/
def isNode (size node : ι) : Except Fault Bool := do
  if ← Ordinal.order .atMost (Ordinal.ofNat 0) node then Ordinal.order .less node size
  else return false

/-- Refuses an edge that does not join two different nodes. -/
def checkEdge (size left right : ι) : Except Fault Unit := do
  let known ← do if ← isNode size left then isNode size right else pure false
  if !known then throw (.unknownNode (Ordinal.text left) (Ordinal.text right))
  if left == right then throw (.selfLoop (Ordinal.text left))

/-- Refuses a list of labels of another length than the number of nodes. -/
def checkLabels (size : ι) (count : Nat) : Except Fault Unit :=
  if (Ordinal.ofNat count : ι) == size then .ok () else .error .labelCount

/-- The labels of nodes that were given none. -/
def countedLabels [NodeLabel L] (size : ι) : Except Fault (List L) := do
  return (List.range (← Ordinal.count size)).map NodeLabel.ofNat

/-- A problem from its parts, which are checked in this order. -/
def make [NodeLabel L] (size : ι) (edges : List (Edge ι K)) (labels : Option (List L))
    (name : Datum) : Except Fault (Problem K ι L) := do
  checkSize size
  edges.forM fun edge => checkEdge size edge.left edge.right
  let labels ← match labels with
    | some labels => pure labels
    | none => countedLabels size
  checkLabels size labels.length
  return ⟨size, edges, .listed labels, name⟩

/-- An edge from a value with three members. -/
def edgeOfDatum (value : Datum) : Except Fault (Edge Datum Datum) := do
  let parts ← match value.members with
    | .ok parts => pure parts
    | .error _ => throw (.notUnpackable value.kind)
  match parts with
  | [left, right, cost] => return ⟨left, right, cost⟩
  | _ =>
      if parts.length < 3 then throw (.tooFewToUnpack 3 parts.length)
      else throw (.tooManyToUnpack 3)

/-- Edges from values, each of them checked before the next one is read. -/
def edgesOfData (size : Datum) : List Datum → Except Fault (List (Edge Datum Datum))
  | [] => .ok []
  | value :: rest => do
      let edge ← edgeOfDatum value
      checkEdge size edge.left edge.right
      return edge :: (← edgesOfData size rest)

/-- A problem from values of any kind; absent labels are counted. -/
def ofData (size edges labels name : Datum) : Except Fault (Problem Datum Datum Datum) := do
  checkSize size
  let edges ← edgesOfData size (← edges.members)
  let labels ← match labels with
    | .nothing => Labels.listed <$> countedLabels size
    | labels => Labels.ofDatum labels
  checkLabels size labels.nodes.length
  return ⟨size, edges, labels, name⟩

end Problem

end CuttingPlanes.Spanning
