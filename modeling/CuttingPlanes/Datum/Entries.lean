import CuttingPlanes.Datum.Basic

/-! Values read as entries by key. -/

namespace CuttingPlanes.Datum

/-- A member of a sequence read as a key and a value. -/
def entryAt (position : Nat) (member : Datum) : Except Fault (Datum × Datum) := do
  let parts ← match member.members with
    | .ok parts => pure parts
    | .error _ => throw (.badUpdateItem position)
  match parts with
  | [key, value] => do
      key.checkKey
      return (key, value)
  | _ => throw (.badUpdateElement position parts.length)

/-- The members of a sequence from a position on, each read as a key and a value. -/
def entriesFrom : (position : Nat) → List Datum → Except Fault (List (Datum × Datum))
  | _, [] => .ok []
  | position, member :: rest => do
      let entry ← entryAt position member
      return entry :: (← entriesFrom (position + 1) rest)

/-- The entries of an object or of a sequence of pairs. -/
def entries : Datum → Except Fault (List (Datum × Datum))
  | object entries => .ok (entries.map fun entry => (text entry.1, entry.2))
  | value => do entriesFrom 0 (← value.members)

end CuttingPlanes.Datum
