import CuttingPlanes.Association
import CuttingPlanes.Datum.Basic
import CuttingPlanes.Number.Reading

/-! Values read from JSON: a number with a point or an exponent is real, any other is whole. -/

namespace CuttingPlanes.Json

/-- The value of a digit in base sixteen. -/
def hexValue (c : Char) : Nat :=
  if c.isDigit then c.toNat - 48 else (c.toLower.toNat - 97) + 10

/-- The code unit that four digits write. -/
def codeUnit (cs : List Char) : Nat := (cs.take 4).foldl (fun n c => 16 * n + hexValue c) 0

/-- The character that two code units stand for together. -/
def paired (high low : Nat) : Option Char :=
  if 0xD800 ≤ high ∧ high < 0xDC00 ∧ 0xDC00 ≤ low ∧ low < 0xE000 then
    some (Char.ofNat (0x10000 + (high - 0xD800) * 1024 + (low - 0xDC00)))
  else none

/-- The character that a letter behind a backslash stands for. -/
def unescaped (c : Char) : Char :=
  match c with
  | 'n' => '\n'
  | 't' => '\t'
  | 'r' => '\r'
  | 'b' => Char.ofNat 8
  | 'f' => Char.ofNat 12
  | other => other

/-- The rest of a string behind some of its characters, and what follows it. -/
def readString : (fuel : Nat) → (read : List Char) → List Char → Option (String × List Char)
  | 0, _, _ => none
  | _, _, [] => none
  | _, read, '"' :: rest => some (String.ofList read.reverse, rest)
  | fuel + 1, read, '\\' :: 'u' :: rest =>
      let after := rest.drop 4
      match paired (codeUnit rest) (codeUnit (after.drop 2)) with
      | some c => readString fuel (c :: read) (after.drop 6)
      | none => readString fuel (Char.ofNat (codeUnit rest) :: read) after
  | fuel + 1, read, '\\' :: c :: rest => readString fuel (unescaped c :: read) rest
  | fuel + 1, read, c :: rest => readString fuel (c :: read) rest

/-- Whether a character can be part of a number. -/
def isNumeral (c : Char) : Bool :=
  c.isDigit || c == '-' || c == '+' || c == '.' || c == 'e' || c == 'E'

/-- The number that characters write. -/
def number? (cs : List Char) : Option Datum :=
  let s := String.ofList cs
  if cs.any fun c => c == '.' || c == 'e' || c == 'E' then (Reading.real? s).map Datum.float
  else (Reading.integer? s).map Datum.int

/-- An object, or the real that it names; one that is no number gets a mark. -/
def object (mark : Nat) (entries : List (String × Datum)) : Datum :=
  match Association.ofPairs entries with
  | [("f", .text "inf")] => .float (Binary64.infinity false)
  | [("f", .text "-inf")] => .float (Binary64.infinity true)
  | [("f", .text "nan")] => .undefined mark
  | entries => .object entries

/-- Characters without the blanks in front. -/
def skip (cs : List Char) : List Char := cs.dropWhile Char.isWhitespace

mutual

/-- A value and what follows it. -/
def readValue : (fuel : Nat) → List Char → Option (Datum × List Char)
  | 0, _ => none
  | fuel + 1, cs =>
      match skip cs with
      | '"' :: rest => (readString fuel [] rest).map fun found => (.text found.1, found.2)
      | '[' :: rest => (readItems fuel [] rest).map fun found => (.list found.1, found.2)
      | '\x7b' :: rest =>
          -- What follows an object is a part of the text that no other object is followed by.
          (readEntries fuel [] rest).map fun found => (object found.2.length found.1, found.2)
      | 'n' :: 'u' :: 'l' :: 'l' :: rest => some (.nothing, rest)
      | 't' :: 'r' :: 'u' :: 'e' :: rest => some (.bool true, rest)
      | 'f' :: 'a' :: 'l' :: 's' :: 'e' :: rest => some (.bool false, rest)
      | rest =>
          (number? (rest.takeWhile isNumeral)).map fun n => (n, rest.dropWhile isNumeral)

/-- The rest of a list behind some of its members, and what follows it. -/
def readItems : (fuel : Nat) → (read : List Datum) → List Char → Option (List Datum × List Char)
  | 0, _, _ => none
  | fuel + 1, read, cs =>
      match skip cs with
      | ']' :: rest => some (read.reverse, rest)
      | ',' :: rest => readItems fuel read rest
      | rest =>
          match readValue fuel rest with
          | some (item, rest) => readItems fuel (item :: read) rest
          | none => none

/-- The rest of an object behind some of its entries, and what follows it. -/
def readEntries : (fuel : Nat) → (read : List (String × Datum)) → List Char →
    Option (List (String × Datum) × List Char)
  | 0, _, _ => none
  | fuel + 1, read, cs =>
      match skip cs with
      | '\x7d' :: rest => some (read.reverse, rest)
      | ',' :: rest => readEntries fuel read rest
      | '"' :: rest =>
          match readString fuel [] rest with
          | some (key, rest) =>
              match readValue fuel ((skip rest).drop 1) with
              | some (value, rest) => readEntries fuel ((key, value) :: read) rest
              | none => none
          | none => none
      | _ => none

end

/-- The value at the start of a text. -/
def read? (s : String) : Option Datum :=
  let cs := s.toList
  (readValue (2 * cs.length + 2) cs).map Prod.fst

end CuttingPlanes.Json
