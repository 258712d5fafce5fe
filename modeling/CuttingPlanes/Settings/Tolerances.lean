import CuttingPlanes.Association
import CuttingPlanes.Datum.Entries
import CuttingPlanes.Datum.Order
import CuttingPlanes.Datum.Text

/-! Tolerances by name, in the order in which they were first given. -/

namespace CuttingPlanes

/-- Tolerances, or the value that was given in their place. -/
inductive Tolerances where
  /-- Values under names of any kind that can be a key. -/
  | held (entries : List (Datum × Datum))
  | misplaced (value : Datum)

namespace Tolerances

/-- The tolerance under every name that has none of its own. -/
def usualValue : Datum := .float (Binary64.nearest (1 / 1000000))

/-- The tolerances that settings begin with. -/
def usualEntries : List (Datum × Datum) :=
  ["violation", "optimality", "integrality"].map fun name => (.text name, usualValue)

/-- The tolerances that settings begin with. -/
def usual : Tolerances := held usualEntries

/-- Tolerances from pairs; of equal names the first gives the place and the last the value. -/
def ofPairs (pairs : List (Datum × Datum)) : Except Fault Tolerances := do
  pairs.forM fun pair => pair.1.checkKey
  return held (Association.ofPairs pairs)

/-- The tolerances that a value stands for. -/
def ofDatum : Datum → Tolerances
  | .object entries => held (entries.map fun entry => (.text entry.1, entry.2))
  | value => misplaced value

/-- The entries, where a member of the given name is asked of them. -/
def entriesFor (member : String) : Tolerances → Except Fault (List (Datum × Datum))
  | held entries => .ok entries
  | misplaced value => .error (.noMember value.kind member)

/-- The entries as a copy. -/
def copied (tolerances : Tolerances) : Except Fault (List (Datum × Datum)) :=
  tolerances.entriesFor "copy"

/-- The entries one by one. -/
def listed (tolerances : Tolerances) : Except Fault (List (Datum × Datum)) :=
  tolerances.entriesFor "items"

/-- The tolerance under a name. -/
def get (tolerances : Tolerances) (name : Datum) : Except Fault Datum := do
  let entries ← tolerances.entriesFor "get"
  name.checkKey
  return (Association.find? name entries).getD usualValue

/-- The tolerance under a word; misplaced tolerances leave the usual value. -/
def ofWord (tolerances : Tolerances) (word : String) : Datum :=
  match tolerances.get (.text word) with
  | .ok value => value
  | .error _ => usualValue

/-- The tolerances with another value under a name. -/
def set (name value : Datum) : Tolerances → Except Fault Tolerances
  | held entries => do
      name.checkKey
      return held (Association.insert name value entries)
  | misplaced other => .error (.noItemAssignment other.kind)

/-- The usual tolerances with those of a value put over them. -/
def overUsual : Tolerances → Except Fault Tolerances
  | held changes => .ok (held (Association.updated usualEntries changes))
  | misplaced value => do return held (Association.updated usualEntries (← value.entries))

/-- Whether two values hold equal tolerances under equal names, in any order. -/
def agree : Tolerances → Tolerances → Bool
  | held left, held right =>
      left.length == right.length &&
        left.all fun entry => (Association.find? entry.1 right).any (entry.2 == ·)
  | misplaced left, misplaced right => left == right
  | _, _ => false

end Tolerances

end CuttingPlanes
