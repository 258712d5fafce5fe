import CuttingPlanes.Enumeration
import CuttingPlanes.Scalar

/-!
Sets of nodes by rank: small sets before large ones, sets of one size by their sorted members. A
set is found from its rank alone, so that as few as are asked for have to be made.
-/

namespace CuttingPlanes.Spanning

/-- The number of ways to choose some of a number of things. -/
def binomial (things : Nat) : (chosen : Nat) → Nat
  | 0 => 1
  | chosen + 1 => binomial things chosen * (things - chosen) / (chosen + 1)

/-- The set of a rank among those of some size; its members lie from a first node on. -/
def combination? : (things size first rank : Nat) → Option (List Nat)
  | _, 0, _, rank => if rank = 0 then some [] else none
  | 0, _ + 1, _, _ => none
  | things + 1, size + 1, first, rank =>
      -- The sets with the first node come before those without it.
      let leading := binomial things size
      if rank < leading then
        (combination? things size (first + 1) rank).map (first :: ·)
      else combination? things (size + 1) (first + 1) (rank - leading)

/-- The set of a rank among those of some sizes in a row. -/
def sized? (things : Nat) : (sizes size rank : Nat) → Option (List Nat)
  | 0, _, _ => none
  | sizes + 1, size, rank =>
      let count := binomial things size
      if rank < count then combination? things size 0 rank
      else sized? things sizes (size + 1) (rank - count)

/-- The set of a rank among those with at least two nodes and not all of them. -/
def subset? (things rank : Nat) : Option (List Nat) := sized? things (things - 2) 2 rank

variable {σ ι : Type} [Ordinal ι]

/-- The sets of nodes for which a cut is considered, made on demand. -/
def subsets (size : ι) : Source σ (List ι) :=
  ⟨fun rank => do
    let things ← Action.ofExcept (Ordinal.count size)
    return (subset? things rank).map (·.map Ordinal.ofNat)⟩

/-- A sorted list with one more member; an equal one takes its place. -/
def insertSorted (node : ι) : List ι → Except Fault (List ι)
  | [] => .ok [node]
  | other :: rest => do
      if node == other then return other :: rest
      else if ← Ordinal.order .less node other then return node :: other :: rest
      else return other :: (← insertSorted node rest)

/-- The members of a list in order, each of them once. -/
def sortedSet (nodes : List ι) : Except Fault (List ι) :=
  nodes.foldlM (fun sorted node => insertSorted node sorted) []

/-- A set of nodes as it is shown. -/
def shownSet (nodes : List ι) : String :=
  if nodes.isEmpty then "frozenset()"
  else "frozenset(\x7b" ++ String.intercalate ", " (nodes.map Ordinal.text) ++ "\x7d)"

end CuttingPlanes.Spanning
