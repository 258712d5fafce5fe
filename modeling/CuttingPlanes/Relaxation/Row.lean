import CuttingPlanes.Association
import CuttingPlanes.Scalar

/-! Rows and columns of a linear program as they are recorded. -/

namespace CuttingPlanes

/-- How a row's left side stands to its right side. -/
inductive Sense where
  | atMost
  | atLeast
  | equal
  deriving DecidableEq, Repr

namespace Sense

/-- The sign of a sense. -/
def symbol : Sense → String
  | atMost => "<="
  | atLeast => ">="
  | equal => "="

/-- The sense that a row is measured by; every text but two asks for equality. -/
def measuredBy : String → Sense
  | "<=" => atMost
  | ">=" => atLeast
  | _ => equal

/-- The sense that a value states. -/
def ofDatum (stated : Datum) : Except Fault Sense :=
  match [atMost, atLeast, equal].find? fun sense => stated == .text sense.symbol with
  | some sense => .ok sense
  | none => .error (.rowSense stated.shown)

end Sense

/-- Whether the least or the greatest cost is sought. -/
inductive Objective where
  | least
  | greatest
  deriving DecidableEq, Repr

namespace Objective

/-- The word for an objective. -/
def word : Objective → String
  | least => "min"
  | greatest => "max"

/-- The objective that a value states. -/
def ofDatum (stated : Datum) : Except Fault Objective :=
  match [least, greatest].find? fun objective => stated == .text objective.word with
  | some objective => .ok objective
  | none => .error (.objectiveSense stated.shown)

end Objective

/-- Names that rows are found by. -/
class RowName (N : Type) where
  ofText : String → N
  /-- Whether two names are equal. -/
  same : N → N → Bool
  /-- Whether a name can be a key. -/
  checkKey : N → Except Fault Unit

/-- The equality of names, where their type has none of its own. -/
instance (priority := 50) {N : Type} [RowName N] : BEq N := ⟨RowName.same⟩

instance : RowName Datum where
  ofText := .text
  same left right := left == right
  checkKey := Datum.checkKey

instance : RowName String where
  ofText := id
  same left right := left == right
  checkKey _ := .ok ()

/-- A variable with its cost and bounds. -/
structure Column (K N : Type) where
  cost : K
  lower : K
  /-- The upper bound, if there is one. -/
  upper : Option K
  name : Option N

/-- A linear constraint on the values of columns. -/
structure Row (K ι N : Type) where
  /-- The coefficients by column. -/
  coefficients : List (ι × K)
  sense : Sense
  rhs : K
  name : Option N

namespace Row

variable {K ι N : Type} [Scalar K] [Ordinal ι]

/-- A sum with the products of coefficients and values added to it, from left to right. -/
def addProducts (values : List K) : (total : K) → List (ι × K) → Except Fault K
  | total, [] => .ok total
  | total, (column, coefficient) :: rest => do
      if ← Ordinal.order .less column (Ordinal.ofNat values.length) then
        let product ← Scalar.mul coefficient (← itemAt values column)
        addProducts values (← Scalar.add total product) rest
      else addProducts values total rest

/-- The left side of a row at a point; columns behind the end of the point are left out. -/
def activity (row : Row K ι N) (values : List K) : Except Fault K :=
  addProducts values (Scalar.ofInt 0) row.coefficients

/-- How far a point is from keeping a row; not above zero when it does. -/
def violation (row : Row K ι N) (values : List K) : Except Fault K := do
  let activity ← row.activity values
  match row.sense with
  | .atMost => Scalar.sub activity row.rhs
  | .atLeast => Scalar.sub row.rhs activity
  | .equal => do Scalar.magnitude (← Scalar.sub activity row.rhs)

end Row

end CuttingPlanes
