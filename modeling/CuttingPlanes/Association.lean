/-! Entries by key, in the order in which their keys first came. -/

namespace CuttingPlanes.Association

variable {κ ν : Type} [BEq κ]

/-- The entries with a value under a key: an equal key keeps its place and its spelling. -/
def insert (key : κ) (value : ν) : List (κ × ν) → List (κ × ν)
  | [] => [(key, value)]
  | entry :: rest =>
      if entry.1 == key then (entry.1, value) :: rest else entry :: insert key value rest

/-- The entries of some pairs; of equal keys the first gives the place and the last the value. -/
def ofPairs (pairs : List (κ × ν)) : List (κ × ν) :=
  pairs.foldl (fun entries pair => insert pair.1 pair.2 entries) []

/-- The value under a key. -/
def find? (key : κ) (entries : List (κ × ν)) : Option ν :=
  (entries.find? fun entry => entry.1 == key).map Prod.snd

/-- Whether a key has an entry. -/
def holds (key : κ) (entries : List (κ × ν)) : Bool := entries.any fun entry => entry.1 == key

/-- The entries with those of a second list put over them. -/
def updated (entries changes : List (κ × ν)) : List (κ × ν) :=
  changes.foldl (fun entries pair => insert pair.1 pair.2 entries) entries

end CuttingPlanes.Association
