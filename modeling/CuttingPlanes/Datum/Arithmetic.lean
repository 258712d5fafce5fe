import CuttingPlanes.Datum.Order
import CuttingPlanes.Number.Reading
import CuttingPlanes.Text.Quoted

/-! Arithmetic on values: whole numbers stay exact, a real makes the result real. -/

namespace CuttingPlanes.Datum

/-- A number as it is computed with: whole, or a double. -/
inductive Numeral where
  | whole (value : Int)
  | real (value : Float)

/-- The number that a value computes as. -/
def numeral? : Datum → Option Numeral
  | bool value => some (.whole (if value then 1 else 0))
  | int value => some (.whole value)
  | float value => some (.real value)
  | undefined _ => some (.real Binary64.noNumber)
  | _ => none

/-- A whole number as a double, refused beyond the finite doubles. -/
def floatOfInt (n : Int) : Except Fault Float :=
  match Binary64.ofInt? n with
  | some x => .ok x
  | none => .error .integerTooLarge

/-- A number as a double. -/
def Numeral.toFloat : Numeral → Except Fault Float
  | whole value => floatOfInt value
  | real value => .ok value

/-- A value as a double; text is read. -/
def toFloat : Datum → Except Fault Float
  | text value =>
      match Reading.real? value with
      | some x => .ok x
      | none => .error (.unreadableReal (Text.quoted value))
  | value =>
      match value.numeral? with
      | some n => n.toFloat
      | none => .error (.notReal value.kind)

/-- The double that a number is handed on as, if there is one; text is not read. -/
def double? (value : Datum) : Option Float :=
  value.numeral?.bind fun n => n.toFloat.toOption

/-- A whole number from a value, where only whole numbers will do. -/
def toIndex : Datum → Except Fault Int
  | bool value => .ok (if value then 1 else 0)
  | int value => .ok value
  | value => .error (.notAnInteger value.kind)

/-- Two numbers combined, by whole arithmetic when both are whole and by doubles otherwise. -/
def combine (onWhole : Int → Int → Int) (onReal : Float → Float → Float) :
    Numeral → Numeral → Except Fault Datum
  | .whole left, .whole right => .ok (int (onWhole left right))
  | left, right => do return float (onReal (← left.toFloat) (← right.toFloat))

/-- The sum of two values; text and lists are joined to their like. -/
def add (left right : Datum) : Except Fault Datum :=
  match left.numeral?, right.numeral?, left, right with
  | some x, some y, _, _ => combine (· + ·) (· + ·) x y
  | _, _, text x, text y => .ok (text (x ++ y))
  | _, _, list x, list y => .ok (list (x ++ y))
  | _, _, text _, _ => .error (.onlyConcatenates "str" right.kind)
  | _, _, list _, _ => .error (.onlyConcatenates "list" right.kind)
  | _, _, _, _ => .error (.unsupportedOperands "+" left.kind right.kind)

/-- The difference of two numbers. -/
def sub (left right : Datum) : Except Fault Datum :=
  match left.numeral?, right.numeral? with
  | some x, some y => combine (· - ·) (· - ·) x y
  | _, _ => .error (.unsupportedOperands "-" left.kind right.kind)

/-- The greatest position that a sequence may have, and the bound of every count. -/
def greatestPosition : Int := 9223372036854775807

/-- Whether a whole number can be a position or a count. -/
def isPosition (n : Int) : Bool := -greatestPosition - 1 ≤ n && n ≤ greatestPosition

/-- The length from which no sequence is held. -/
def memoryLimit : Nat := 8589934592

/-- A whole number as the end of a range that starts at zero, refused where it is out of reach. -/
def countOf (n : Int) : Except Fault Nat := do
  if greatestPosition < n then throw .countTooLarge
  if memoryLimit ≤ n then throw .outOfMemory
  return n.toNat

/-- Refuses a sequence of some length when it cannot be repeated so often. -/
def checkRepetition (length : Nat) (count : Int) (tooLong : Fault) : Except Fault Unit := do
  if !isPosition count then throw .repetitionTooLarge
  if greatestPosition < length * count then throw tooLong
  if memoryLimit ≤ length * count then throw .outOfMemory

/-- A sequence written out as often as a whole number says. -/
def repeated (sequence count : Datum) : Except Fault Datum :=
  match sequence, count.toIndex with
  | text x, .ok n => do
      checkRepetition x.length n .textTooLong
      return if x.isEmpty then text x else text (String.join (List.replicate n.toNat x))
  | list x, .ok n => do
      checkRepetition x.length n .outOfMemory
      return if x.isEmpty then list x else list (List.replicate n.toNat x).flatten
  | _, _ => .error (.repeatedByNonInteger count.kind)

/-- Whether a value is text or a list. -/
def isSequence : Datum → Bool
  | text _ => true
  | list _ => true
  | _ => false

/-- The product of two values; a sequence is repeated by a whole number. -/
def mul (left right : Datum) : Except Fault Datum :=
  match left.numeral?, right.numeral? with
  | some x, some y => combine (· * ·) (· * ·) x y
  | _, _ =>
      if left.isSequence then repeated left right
      else if right.isSequence then repeated right left
      else .error (.unsupportedOperands "*" left.kind right.kind)

/-- The double nearest to a quotient of whole numbers, refused beyond the finite doubles. -/
def quotient (x y : Int) : Except Fault Float :=
  let size := Binary64.nearestBits x.natAbs y.natAbs
  if y = 0 then .error .divisionByZero
  else if size = Binary64.infinityBits then .error .quotientTooLarge
  else
    -- A quotient that vanishes keeps its sign.
    let nearest := Float.ofBits (UInt64.ofNat size)
    .ok (if (x < 0) = (y < 0) then nearest else -nearest)

/-- The quotient of two numbers, always real. -/
def div (left right : Datum) : Except Fault Datum :=
  match left.numeral?, right.numeral? with
  | some (.whole x), some (.whole y) => float <$> quotient x y
  | some x, some y => do
      let (x, y) := (← x.toFloat, ← y.toFloat)
      if (Binary64.exact y).same (.finite 0) then throw .divisionByZero
      return float (x / y)
  | _, _ => .error (.unsupportedOperands "/" left.kind right.kind)

/-- A number without its sign. -/
def magnitude (value : Datum) : Except Fault Datum :=
  match value.numeral? with
  | some (.whole n) => .ok (int n.natAbs)
  | some (.real x) => .ok (float x.abs)
  | none => .error (.noMagnitude value.kind)

/-- A rational rounded to the nearest whole number, a half going to the even one. -/
def roundRational (q : Rat) : Int :=
  let size := Binary64.roundQuotient q.num.natAbs q.den
  if q < 0 then -(size : Int) else size

/-- The whole number nearest to a value. -/
def nearest (value : Datum) : Except Fault Datum :=
  match value.number? with
  | some (.finite q) => .ok (int (roundRational q))
  | some (.infinite _) => .error .infiniteInteger
  | some .undefined => .error .undefinedInteger
  | none => .error (.noRounding value.kind)

/-- A number with a fixed count of places. -/
def fixed (places : Nat) (value : Datum) : Except Fault String :=
  match value.numeral?, value with
  | some n, _ => do return Layout.fixed places (← n.toFloat)
  | none, text _ => .error (.unknownFormat "f" "str")
  | none, _ => .error (.notFormattable value.kind)

/-- The whole part of a number, written plainly. -/
def wholePart (value : Datum) : String :=
  match value.number? with
  | some (.finite q) => Layout.integer (q.num.tdiv q.den)
  | _ => "0"

end CuttingPlanes.Datum
