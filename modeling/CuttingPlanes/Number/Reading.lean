import CuttingPlanes.Fault
import CuttingPlanes.Number.Layout
import CuttingPlanes.Text.Blank
import CuttingPlanes.Text.Digit
import CuttingPlanes.Text.Quoted

/-! How whole numbers and reals are read from text. -/

namespace CuttingPlanes.Reading

/-- Whether a character may stand around a number: a blank that is no separator of records. -/
def isPadding (c : Char) : Bool := Text.isBlank c && !(28 ≤ c.toNat && c.toNat ≤ 31)

/-- Text without outer padding, its digits brought to their plain form. -/
def plain (s : String) : List Char :=
  (Text.trimWhere isPadding s.toList).map fun c =>
    match Text.digitValue? c with
    | some value => Nat.digitChar value
    | none => c

/-- A leading sign, and what follows it. -/
def sign : List Char → Bool × List Char
  | '-' :: rest => (true, rest)
  | '+' :: rest => (false, rest)
  | rest => (false, rest)

/-- Characters without their underscores, each of which must stand between two digits. -/
def dropUnderscores : (afterDigit : Bool) → List Char → Option (List Char)
  | _, [] => some []
  | afterDigit, '_' :: rest =>
      if afterDigit && (rest.head?.any Char.isDigit) then dropUnderscores false rest else none
  | _, c :: rest => (dropUnderscores c.isDigit rest).map (c :: ·)

/-- The number that plain digits write, in base ten. -/
def number (cs : List Char) : Nat :=
  cs.foldl (fun value c => 10 * value + (c.toNat - 48)) 0

/-- A nonempty run of digits, as a number. -/
def digits? (cs : List Char) : Option Nat :=
  if !cs.isEmpty && cs.all Char.isDigit then some (number cs) else none

/-- A whole number with an optional sign. -/
def integer? (s : String) : Option Int := do
  let (negative, body) := sign (plain s)
  let size ← digits? (← dropUnderscores false body)
  return if negative then -(size : Int) else size

/-- The digits at the front of a text behind its sign, unless an underscore among them is amiss. -/
def leadingDigits? (s : String) : Option (List Char) :=
  dropUnderscores false ((sign (plain s)).2.takeWhile fun c => c.isDigit || c == '_')

/-- The greatest number of digits that a whole number may be written with. -/
def greatestLength : Nat := 4300

/-- The greatest length at which text is shown in full when it is no whole number. -/
def shownLength : Nat := 200

/-- A whole number from text of any length; too many digits are refused whatever follows them. -/
def integer (s : String) : Except Fault Int :=
  let count := ((leadingDigits? s).getD []).length
  if greatestLength < count then .error (.tooManyDigits count)
  else match integer? s with
    | some n => .ok n
    | none =>
        .error (.unreadableInteger (String.ofList ((Text.quoted s).toList.take shownLength)))

/-- An optional power of ten behind the digits of a decimal. -/
def power? : List Char → Option Int
  | [] => some 0
  | mark :: rest =>
      if mark = 'e' ∨ mark = 'E' then
        let (negative, body) := sign rest
        (digits? body).map fun size => if negative then -(size : Int) else size
      else none

/-- A decimal without a sign, with digits on at least one side of an optional point. -/
def decimal? (cs : List Char) : Option Shortest.Decimal := do
  let whole := cs.takeWhile Char.isDigit
  let rest := cs.dropWhile Char.isDigit
  let (fraction, rest) :=
    match rest with
    | '.' :: rest => (rest.takeWhile Char.isDigit, rest.dropWhile Char.isDigit)
    | _ => ([], rest)
  let value ← digits? (whole ++ fraction)
  return ⟨value, (← power? rest) - fraction.length⟩

/-- The powers of ten beyond which every nonzero decimal is infinite or vanishes. -/
def extreme : Int := 400

/-- The double nearest to a decimal without a sign. -/
def nearest (value : Shortest.Decimal) : Float :=
  let leading := value.exponent + (Layout.digits value.digits).length
  if value.digits = 0 ∨ leading < -extreme then Binary64.nearest 0
  else if extreme < leading then Binary64.infinity false
  else if 0 ≤ value.exponent then
    Binary64.nearest ((value.digits * Nat.pow 10 value.exponent.toNat : Nat) : Rat)
  else Binary64.nearest (mkRat value.digits (Nat.pow 10 (-value.exponent).toNat))

/-- The values that are written with letters. -/
def named? (cs : List Char) : Option Float :=
  let name := String.ofList (cs.map Char.toLower)
  if name = "inf" ∨ name = "infinity" then some (Binary64.infinity false)
  else if name = "nan" then some Binary64.noNumber
  else none

/-- A real with an optional sign. -/
def real? (s : String) : Option Float := do
  let (negative, body) := sign (plain s)
  let size ←
    match named? body with
    | some x => some x
    | none => (decimal? (← dropUnderscores false body)).map nearest
  return if negative then -size else size

end CuttingPlanes.Reading
