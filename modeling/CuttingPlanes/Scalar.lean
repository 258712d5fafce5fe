import CuttingPlanes.Datum.Arithmetic
import CuttingPlanes.Datum.Text

/-! Numbers that a linear program can be written in, and the references to its columns and nodes. -/

namespace CuttingPlanes

/-- Arithmetic in which every step may be refused. -/
class Scalar (K : Type) where
  /-- A whole number. -/
  ofInt : Int → K
  /-- The real nearest to a rational. -/
  ofRat : Rat → K
  /-- The real nearest to a number, where there is one that stands for it. -/
  ofExtended : Extended → Option K
  /-- A value made real. -/
  real : K → Except Fault K
  add : K → K → Except Fault K
  sub : K → K → Except Fault K
  mul : K → K → Except Fault K
  div : K → K → Except Fault K
  /-- A number without its sign. -/
  magnitude : K → Except Fault K
  /-- The nearest whole number, a half going to the even one. -/
  nearest : K → Except Fault K
  /-- Whether two numbers stand in a relation. -/
  order : Relation → K → K → Except Fault Bool
  /-- Whether a value equals zero. -/
  isZero : K → Bool
  /-- Whether a value counts as true. -/
  countsTrue : K → Bool
  /-- The exact number that a value stands for. -/
  exact : K → Extended
  /-- The number that a value is handed to a solver as, where the solver takes it. -/
  handed? : K → Option Extended
  /-- A number written plainly. -/
  text : K → String
  /-- A number written with a fixed count of places. -/
  fixed : Nat → K → Except Fault String
  /-- The whole part of a number, written plainly. -/
  wholePart : K → String

instance : Scalar Datum where
  ofInt := .int
  ofRat q := .float (Binary64.nearest q)
  ofExtended
    | .finite q => some (.float (Binary64.nearest q))
    | .infinite negative => some (.float (Binary64.infinity negative))
    | .undefined => some (.float Binary64.noNumber)
  real value := .float <$> value.toFloat
  add := Datum.add
  sub := Datum.sub
  mul := Datum.mul
  div := Datum.div
  magnitude := Datum.magnitude
  nearest := Datum.nearest
  order := Datum.order
  isZero value := value == .int 0
  countsTrue := Datum.countsTrue
  exact value := value.number?.getD .undefined
  handed? value := value.double?.map Binary64.exact
  text := Datum.plain
  fixed := Datum.fixed
  wholePart := Datum.wholePart

/-- Exact arithmetic, in which nothing is rounded and nothing is refused but division by zero. -/
instance : Scalar Rat where
  ofInt n := n
  ofRat q := q
  ofExtended := Extended.rational?
  real q := .ok q
  add p q := .ok (p + q)
  sub p q := .ok (p - q)
  mul p q := .ok (p * q)
  div p q := if q = 0 then .error .divisionByZero else .ok (p / q)
  magnitude q := .ok (if q < 0 then -q else q)
  nearest q := .ok (Datum.roundRational q)
  order relation p q := .ok ((Extended.finite p).related relation (.finite q))
  isZero q := q == 0
  countsTrue q := q != 0
  exact q := .finite q
  handed? q := some (.finite q)
  text q := Layout.integer q.num ++ "/" ++ Layout.integer q.den
  fixed places q := .ok (Layout.fixedRational places q)
  wholePart q := Layout.integer (q.num.tdiv q.den)

/-- References to columns and nodes, which count from zero. -/
class Ordinal (ι : Type) where
  ofNat : Nat → ι
  /-- Whether two references are equal. -/
  same : ι → ι → Bool
  /-- Whether two references stand in a relation. -/
  order : Relation → ι → ι → Except Fault Bool
  /-- The place in a list that a reference names; a negative one counts from the end. -/
  place : ι → Except Fault Int
  /-- The position that a reference not below zero falls on, whatever its fraction. -/
  position : ι → Nat
  /-- The count that a reference gives as the end of a range. -/
  count : ι → Except Fault Nat
  /-- The name under which a reference looks up an entry of an object. -/
  entryName : ι → Except Fault String
  /-- A reference written plainly. -/
  text : ι → String

/-- The equality of references, where their type has none of its own. -/
instance (priority := 50) {ι : Type} [Ordinal ι] : BEq ι := ⟨Ordinal.same⟩

instance : Ordinal Datum where
  ofNat n := .int n
  same left right := left == right
  order := Datum.order
  place
    | .bool value => .ok (if value then 1 else 0)
    | .int value => if Datum.isPosition value then .ok value else .error .positionTooLarge
    | value => .error (.notAPosition value.kind)
  position value := ((value.number?.bind Extended.rational?).getD 0).floor.toNat
  count value := do Datum.countOf (← value.toIndex)
  entryName
    | .text name => .ok name
    | value => do
        value.checkKey
        throw (.missingKey value.shown)
  text := Datum.plain

instance : Ordinal Nat where
  ofNat n := n
  same left right := left == right
  order relation left right := .ok (relation.holds (compare left right))
  place n := .ok n
  position := id
  count n := .ok n
  entryName n := .error (.missingKey (Layout.integer n))
  text n := Layout.integer n

/-- The member of a list at a reference; a negative reference counts from the end. -/
def itemAt {ι α : Type} [Ordinal ι] (items : List α) (reference : ι) : Except Fault α := do
  let place ← Ordinal.place reference
  let place := if place < 0 then place + items.length else place
  if place < 0 then throw .outOfRange
  match items[place.toNat]? with
  | some item => return item
  | none => throw .outOfRange

end CuttingPlanes
