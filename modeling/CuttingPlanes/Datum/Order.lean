import CuttingPlanes.Datum.Basic

/-! Equality and order of values: numbers exactly, text by code point, lists by first difference. -/

namespace CuttingPlanes.Datum

mutual

/--
Whether two values are equal; numbers of different kinds are compared as numbers, and a real that
is no number is equal to itself alone.
-/
def same : Datum → Datum → Bool
  | nothing, nothing => true
  | int left, int right => left == right
  | undefined left, undefined right => left == right
  | float left, float right =>
      left.toBits == right.toBits || (Binary64.exact left).same (Binary64.exact right)
  | text left, text right => left == right
  | list left, list right => sameItems left right
  | object left, object right => left.length == right.length && sameEntries left right
  | left, right =>
      match left.number?, right.number? with
      | some x, some y => x.same y
      | _, _ => false

/-- Whether two lists have equal members in one order. -/
def sameItems : List Datum → List Datum → Bool
  | [], [] => true
  | x :: xs, y :: ys => same x y && sameItems xs ys
  | _, _ => false

/-- Whether every entry on the left has an equal one on the right. -/
def sameEntries : List (String × Datum) → List (String × Datum) → Bool
  | [], _ => true
  | (key, x) :: rest, right =>
      (match right.lookup key with
        | some y => same x y
        | none => false) && sameEntries rest right

end

instance : BEq Datum := ⟨same⟩

mutual

/--
Whether two values are spelled alike: equal numbers of different kinds are not, and reals that are
no numbers are.
-/
def alike : Datum → Datum → Bool
  | nothing, nothing => true
  | bool left, bool right => left == right
  | int left, int right => left == right
  | float left, float right => left.toBits == right.toBits || (left.isNaN && right.isNaN)
  | float left, undefined _ => left.isNaN
  | undefined _, float right => right.isNaN
  | undefined _, undefined _ => true
  | text left, text right => left == right
  | list left, list right => alikeItems left right
  | object left, object right => alikeEntries left right
  | _, _ => false

/-- Whether two lists have members that are spelled alike, in one order. -/
def alikeItems : List Datum → List Datum → Bool
  | [], [] => true
  | x :: xs, y :: ys => alike x y && alikeItems xs ys
  | _, _ => false

/-- Whether two objects have entries that are spelled alike, in one order. -/
def alikeEntries : List (String × Datum) → List (String × Datum) → Bool
  | [], [] => true
  | (left, x) :: xs, (right, y) :: ys => left == right && alike x y && alikeEntries xs ys
  | _, _ => false

end

mutual

/-- Whether two values stand in a relation, which is refused for kinds that have no common order. -/
def order (relation : Relation) : Datum → Datum → Except Fault Bool
  | text left, text right => .ok (relation.holds (compare left right))
  | list left, list right => orderItems relation left right
  | left, right =>
      match left.number?, right.number? with
      | some x, some y => .ok (x.related relation y)
      | _, _ => .error (.incomparable relation left.kind right.kind)

/-- Lists stand as their first members that differ, or as their lengths when none does. -/
def orderItems (relation : Relation) : List Datum → List Datum → Except Fault Bool
  | [], [] => .ok (relation.holds .eq)
  | [], _ :: _ => .ok (relation.holds .lt)
  | _ :: _, [] => .ok (relation.holds .gt)
  | x :: xs, y :: ys => if same x y then orderItems relation xs ys else order relation x y

end

/-- The strict order of values. -/
def less (left right : Datum) : Except Fault Bool := order .less left right

end CuttingPlanes.Datum
