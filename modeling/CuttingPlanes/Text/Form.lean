import CuttingPlanes.Fault
import CuttingPlanes.Number.Reading

/-!
Forms: texts with gaps to be filled in, each of which a percent sign opens. What counts here is
whether a form can be filled in with one whole number, and not what it then says.
-/

namespace CuttingPlanes.Text.Form

/-- The characters that may stand right behind the opening of a gap. -/
def flags : List Char := ['-', '+', ' ', '#', '0']

/-- The characters that may stand right in front of the letter of a gap, and mean nothing. -/
def widths : List Char := ['h', 'l', 'L']

/-- The letters that say how a gap is to be filled. -/
def letters : List Char := "sradiouxXeEfFgGc".toList

/-- The greatest number of characters that a gap may ask for. -/
def greatestWidth : Nat := 9223372036854775807

/-- The greatest number of places that a gap may ask for. -/
def greatestPlaces : Nat := 2147483647

/-- Uses the number up, which can be done once. -/
def takeNumber (isTaken : Bool) : Except Fault Bool :=
  if isTaken then .error .tooFewForForm else .ok true

/-- Passes the size that a gap asks for, where a star stands for the number itself. -/
def passSize (greatest : Nat) (tooLarge : Fault) (isTaken : Bool) :
    List Char → Except Fault (Bool × List Char)
  | '*' :: rest => do return (← takeNumber isTaken, rest)
  | cs =>
      if greatest < Reading.number (cs.takeWhile Char.isDigit) then .error tooLarge
      else .ok (isTaken, cs.dropWhile Char.isDigit)

/-- A letter as messages show it. -/
def shownLetter (c : Char) : String :=
  String.ofList [if 32 ≤ c.toNat && c.toNat < 127 then c else '?']

/-- Passes the letter of a gap, in a form of a given length, and fills the gap. -/
def passLetter (length : Nat) (isTaken : Bool) : List Char → Except Fault (Bool × List Char)
  | [] => .error .unfinishedForm
  | c :: rest => do
      let isTaken ← takeNumber isTaken
      if c ∈ letters then return (isTaken, rest)
      else throw (.unknownLetter (shownLetter c)
        (String.ofList (Nat.toDigits 16 c.toNat)) (length - rest.length - 1))

/-- Passes a gap behind its percent sign; a second percent sign makes it no gap at all. -/
def passGap (length : Nat) (isTaken : Bool) : List Char → Except Fault (Bool × List Char)
  | '(' :: _ => .error .unnamedNumber
  | '%' :: rest => .ok (isTaken, rest)
  | cs => do
      let cs := cs.dropWhile (· ∈ flags)
      let (isTaken, cs) ← passSize greatestWidth .gapTooWide isTaken cs
      let (isTaken, cs) ← match cs with
        | '.' :: cs => passSize greatestPlaces .tooManyPlaces isTaken cs
        | cs => pure (isTaken, cs)
      passLetter length isTaken (if cs.head?.any (· ∈ widths) then cs.drop 1 else cs)

/-- Fills all gaps, within the granted turns; says whether the number has been used. -/
def fillFrom (length : Nat) : (turns : Nat) → (isTaken : Bool) → List Char → Except Fault Bool
  | 0, isTaken, _ => .ok isTaken
  | turns + 1, isTaken, cs =>
      match cs.dropWhile (· != '%') with
      | [] => .ok isTaken
      | _ :: cs => do
          let (isTaken, cs) ← passGap length isTaken cs
          fillFrom length turns isTaken cs

/-- Refuses a form that one whole number does not fill. -/
def check (form : String) : Except Fault Unit := do
  let cs := form.toList
  if !(← fillFrom cs.length cs.length false cs) then throw .leftOverText

end CuttingPlanes.Text.Form
