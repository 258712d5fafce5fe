import CuttingPlanes.Fault

/-! Exact numbers beside the two infinities and the value that is no number. -/

namespace CuttingPlanes

/-- A rational, an infinity, or no number at all. -/
inductive Extended where
  | finite (value : Rat)
  | infinite (negative : Bool)
  | undefined
  deriving DecidableEq

namespace Extended

/-- How two numbers stand, when both are numbers. -/
def compare? : Extended → Extended → Option Ordering
  | undefined, _ => none
  | _, undefined => none
  | finite left, finite right =>
      some (if left < right then .lt else if right < left then .gt else .eq)
  | finite _, infinite negative => some (if negative then .gt else .lt)
  | infinite negative, finite _ => some (if negative then .lt else .gt)
  | infinite true, infinite false => some .lt
  | infinite false, infinite true => some .gt
  | infinite _, infinite _ => some .eq

/-- Whether two numbers stand in a relation; nothing does with a value that is no number. -/
def related (relation : Relation) (left right : Extended) : Bool :=
  match left.compare? right with
  | some order => relation.holds order
  | none => false

/-- Whether two values are the same number. -/
def same (left right : Extended) : Bool :=
  left.compare? right == some .eq

/-- The sum of two numbers; opposite infinities have none. -/
def add : Extended → Extended → Extended
  | finite left, finite right => finite (left + right)
  | infinite left, infinite right => if left = right then infinite left else undefined
  | infinite negative, finite _ => infinite negative
  | finite _, infinite negative => infinite negative
  | _, _ => undefined

/-- The rational, when the value is one. -/
def rational? : Extended → Option Rat
  | finite value => some value
  | _ => none

end Extended

end CuttingPlanes
