import CuttingPlanes.Number.Shortest

/-! How numbers are written, with their shortest digits or with a fixed number of places. -/

namespace CuttingPlanes.Layout

/-- The decimal digits of a natural number. -/
def digits (n : Nat) : List Char := Nat.toDigits 10 n

/-- Digits with zeros in front, up to a width. -/
def padZeros (width : Nat) (cs : List Char) : List Char :=
  List.replicate (width - cs.length) '0' ++ cs

/-- A whole number with its sign. -/
def integer (n : Int) : String :=
  String.ofList (if n < 0 then '-' :: digits n.natAbs else digits n.natAbs)

/-- The least power of ten of a leading digit that is written without an exponent. -/
def leastPositional : Int := -4

/-- The power of ten of a leading digit from which an exponent is written. -/
def firstScientific : Int := 16

/-- Digits whose first one stands at a power of ten, written around a point. -/
def positional (cs : List Char) (leading : Int) : List Char :=
  if leading < 0 then '0' :: '.' :: List.replicate (-leading - 1).toNat '0' ++ cs
  else
    let width := leading.toNat + 1
    let fraction := cs.drop width
    cs.take width ++ List.replicate (width - cs.length) '0' ++
      '.' :: (if fraction.isEmpty then ['0'] else fraction)

/-- Digits with one in front of the point and an exponent of at least two digits. -/
def scientific (cs : List Char) (leading : Int) : List Char :=
  let fraction := cs.drop 1
  cs.take 1 ++ (if fraction.isEmpty then [] else '.' :: fraction) ++
    'e' :: (if leading < 0 then '-' else '+') :: padZeros 2 (digits leading.natAbs)

/-- A positive decimal, written positionally where its leading digit stands near the point. -/
def decimal (value : Shortest.Decimal) : List Char :=
  let cs := digits value.digits
  let leading := value.exponent + cs.length - 1
  if leastPositional ≤ leading ∧ leading < firstScientific then positional cs leading
  else scientific cs leading

/-- A minus sign in front of a negative number. -/
def signed (negative : Bool) (cs : List Char) : String :=
  String.ofList (if negative then '-' :: cs else cs)

/-- The shortest text that reads back as a double. -/
def shortest (x : Float) : String :=
  match Binary64.form x with
  | .undefined => "nan"
  | .infinite negative => signed negative ['i', 'n', 'f']
  | .finite negative significand exponent =>
      if significand = 0 then signed negative ['0', '.', '0']
      else signed negative (decimal (Shortest.ofPositive significand exponent))

/-- A number of units of the last place, with a point in front of that many places. -/
def pointed (places units : Nat) : List Char :=
  let cs := padZeros (places + 1) (digits units)
  let whole := cs.length - places
  if places = 0 then cs else cs.take whole ++ '.' :: cs.drop whole

/-- A rational size rounded to a number of places, a half going to the even digit. -/
def roundedPlaces (places : Nat) (size : Rat) : List Char :=
  pointed places (Binary64.roundQuotient (size.num.natAbs * Nat.pow 10 places) size.den)

/-- A double rounded to a number of places; the sign stays also where only zeros are left. -/
def fixed (places : Nat) (x : Float) : String :=
  match Binary64.form x with
  | .undefined => "nan"
  | .infinite negative => signed negative ['i', 'n', 'f']
  | .finite negative significand exponent =>
      signed negative (roundedPlaces places (Binary64.scaled significand exponent))

/-- A rational rounded to a number of places. -/
def fixedRational (places : Nat) (q : Rat) : String :=
  signed (q < 0) (roundedPlaces places (if q < 0 then -q else q))

/-- Text set flush right in a field. -/
def flushRight (width : Nat) (s : String) : String :=
  String.ofList (List.replicate (width - s.length) ' ') ++ s

/-- Text set flush left in a field. -/
def flushLeft (width : Nat) (s : String) : String :=
  s ++ String.ofList (List.replicate (width - s.length) ' ')

end CuttingPlanes.Layout
