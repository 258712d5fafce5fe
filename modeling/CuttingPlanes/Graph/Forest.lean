/-! Connected parts and lightest spanning forests of graphs whose nodes are numbers. -/

namespace CuttingPlanes.Forest

/-- For every node, the number of the part that it belongs to; each node starts on its own. -/
def apart (count : Nat) : List Nat := List.range count

/-- The parts after two nodes have been joined. -/
def joined (parts : List Nat) (left right : Nat) : List Nat :=
  let leaving := parts.getD left left
  let into := parts.getD right right
  parts.map fun part => if part = leaving then into else part

/-- Whether two nodes belong to one part. -/
def together (parts : List Nat) (left right : Nat) : Bool :=
  parts.getD left left == parts.getD right right

/-- The parts that edges join nodes into. -/
def parts (count : Nat) (edges : List (Nat × Nat)) : List Nat :=
  edges.foldl (fun parts edge => joined parts edge.1 edge.2) (apart count)

/-- Whether every node is reached from every other one; a graph without nodes is not connected. -/
def isConnected (count : Nat) (edges : List (Nat × Nat)) : Bool :=
  match parts count edges with
  | [] => false
  | part :: rest => rest.all (· == part)

/-- The edges that join two parts when they are met, in the order of meeting. -/
def grown : (parts : List Nat) → List (Nat × Nat × Rat) → List (Nat × Nat × Rat)
  | _, [] => []
  | parts, edge :: rest =>
      if together parts edge.1 edge.2.1 then grown parts rest
      else edge :: grown (joined parts edge.1 edge.2.1) rest

/-- The edges of a lightest spanning forest: light edges are met before heavy ones. -/
def lightest (count : Nat) (edges : List (Nat × Nat × Rat)) : List (Nat × Nat × Rat) :=
  grown (apart count) (edges.mergeSort fun left right => left.2.2 ≤ right.2.2)

/-- The total weight of a lightest spanning forest. -/
def weight (count : Nat) (edges : List (Nat × Nat × Rat)) : Rat :=
  (lightest count edges).foldl (fun total edge => total + edge.2.2) 0

end CuttingPlanes.Forest
