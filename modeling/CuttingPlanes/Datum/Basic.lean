import CuttingPlanes.Number.Extended
import CuttingPlanes.Number.Binary64

/-! Values whose kind is known only when they are looked at. -/

namespace CuttingPlanes

/-- A value of any kind; objects keep the order in which their keys came. -/
inductive Datum where
  | nothing
  | bool (value : Bool)
  | int (value : Int)
  | float (value : Float)
  /-- A real that is no number; its mark tells it from others of its kind. -/
  | undefined (mark : Nat)
  | text (value : String)
  | list (items : List Datum)
  | object (entries : List (String × Datum))
  deriving Inhabited

namespace Datum

/-- The name of a value's kind. -/
def kind : Datum → String
  | nothing => "NoneType"
  | bool _ => "bool"
  | int _ => "int"
  | float _ => "float"
  | undefined _ => "float"
  | text _ => "str"
  | list _ => "list"
  | object _ => "dict"

/-- Whether a value counts as true: all do but zero, the empty and the absent. -/
def countsTrue : Datum → Bool
  | nothing => false
  | bool value => value
  | int value => value != 0
  | float value => !(Binary64.exact value).same (.finite 0)
  | undefined _ => true
  | text value => !value.isEmpty
  | list items => !items.isEmpty
  | object entries => !entries.isEmpty

/-- Whether a value is the absent one. -/
def isNothing : Datum → Bool
  | nothing => true
  | _ => false

/-- The number that a value stands for, when it is one; true counts as one and false as zero. -/
def number? : Datum → Option Extended
  | bool value => some (.finite (if value then 1 else 0))
  | int value => some (.finite value)
  | float value => some (Binary64.exact value)
  | undefined _ => some .undefined
  | _ => none

/-- The members of a value that can be walked through. -/
def members : Datum → Except Fault (List Datum)
  | list items => .ok items
  | text value => .ok (value.toList.map fun c => text (String.ofList [c]))
  | object entries => .ok (entries.map fun entry => text entry.1)
  | value => .error (.notIterable value.kind)

/-- The number of members of a value. -/
def length : Datum → Except Fault Nat
  | list items => .ok items.length
  | text value => .ok value.length
  | object entries => .ok entries.length
  | value => .error (.noLength value.kind)

/-- A value is refused as a key when its content may change. -/
def checkKey : Datum → Except Fault Unit
  | list _ => .error (.unusableKey "list")
  | object _ => .error (.unusableKey "dict")
  | _ => .ok ()

end Datum

end CuttingPlanes
