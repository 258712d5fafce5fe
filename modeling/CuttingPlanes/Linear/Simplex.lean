import CuttingPlanes.Linear.Certificate
import CuttingPlanes.Linear.Dictionary

/-!
The simplex method with exact numbers: bounds are turned into inequalities over variables that are
at least zero, a first search finds a point, a second one the best point. What is found counts only
with a certificate.
-/

namespace CuttingPlanes.Linear

/-- A sum of multiples of variables that is at most a limit. -/
structure Inequality where
  terms : List (Nat × Rat)
  limit : Rat

/-- A variable of a program as a constant and multiples of variables that are at least zero. -/
structure Encoding where
  constant : Rat
  terms : List (Nat × Rat)

namespace Encoding

/-- The variable inside its bounds, where the next number is free; the bound still to be kept. -/
def ofBounds (bounds : Bounds) (next : Nat) : Encoding × Nat × List Inequality :=
  match bounds.lower, bounds.upper with
  | some low, some high => (⟨low, [(next, 1)]⟩, next + 1, [⟨[(next, 1)], high - low⟩])
  | some low, none => (⟨low, [(next, 1)]⟩, next + 1, [])
  | none, some high => (⟨high, [(next, -1)]⟩, next + 1, [])
  | none, none => (⟨0, [(next, 1), (next + 1, -1)]⟩, next + 2, [])

/-- All variables of a program, their numbers counted from a first one. -/
def ofColumns : List Column → (next : Nat) → List Encoding × Nat × List Inequality
  | [], next => ([], next, [])
  | column :: rest, next =>
      let (encoding, after, limits) := ofBounds column.bounds next
      let (others, last, more) := ofColumns rest after
      (encoding :: others, last, limits ++ more)

/-- Multiples of a program's variables, written in the encoding. -/
def combined (encodings : Array Encoding) (terms : List (Nat × Rat)) : Encoding :=
  terms.foldl
    (fun total term =>
      match encodings[term.1]? with
      | some encoding =>
          ⟨total.constant + term.2 * encoding.constant,
            total.terms ++ encoding.terms.map fun inner => (inner.1, term.2 * inner.2)⟩
      | none => total)
    ⟨0, []⟩

end Encoding

/-- An inequality of a row, with its place in the program and the sign of its multiplier. -/
structure RowLimit where
  row : Nat
  sign : Rat
  inequality : Inequality

/-- The inequalities of a row: one for each end of its interval. -/
def RowLimit.ofRow (encodings : Array Encoding) (position : Nat) (row : Row) : List RowLimit :=
  let activity := Encoding.combined encodings row.terms
  let above := match row.bounds.upper with
    | some high => [⟨position, -1, ⟨activity.terms, high - activity.constant⟩⟩]
    | none => []
  let below := match row.bounds.lower with
    | some low =>
        [⟨position, 1,
          ⟨activity.terms.map fun term => (term.1, -term.2), activity.constant - low⟩⟩]
    | none => []
  above ++ below

/-- A program brought to inequalities; variables are numbered from one, the slacks behind them. -/
structure Standard where
  encodings : List Encoding
  /-- The number of the first slack. -/
  firstSlack : Nat
  rowLimits : List RowLimit
  columnLimits : List Inequality
  goal : List (Nat × Rat)

namespace Standard

/-- The inequalities of a program and the goal of greatest negative cost. -/
def ofProgram (program : Program) : Standard :=
  let (encodings, next, columnLimits) := Encoding.ofColumns program.columns 1
  let table := encodings.toArray
  let costs := program.minimised.zipIdx.map fun entry => (entry.2, -entry.1)
  { encodings := encodings
    firstSlack := next
    rowLimits := (program.rows.zipIdx.map fun entry =>
      RowLimit.ofRow table entry.2 entry.1).flatten
    columnLimits := columnLimits
    goal := (Encoding.combined table costs).terms }

/-- All inequalities, in the order of their slacks. -/
def limits (standard : Standard) : List Inequality :=
  standard.rowLimits.map RowLimit.inequality ++ standard.columnLimits

/-- A number of exchanges that is not reached, since no set of variables on the left comes twice. -/
def turns (standard : Standard) : Nat :=
  Nat.pow 2 (standard.firstSlack + standard.limits.length + 1)

/-- The slack of an inequality, with the artificial variable zero added to it. -/
def slack (unknowns : List Nat) (inequality : Inequality) : Combination :=
  ⟨inequality.limit, 1 :: unknowns.map fun unknown =>
    -total (inequality.terms.map fun term => if term.1 = unknown then term.2 else 0)⟩

/-- The dictionary whose slacks stand on the left; its goal is to make the artificial one vanish. -/
def start (standard : Standard) : Dictionary :=
  let unknowns := (List.range (standard.firstSlack - 1)).map (· + 1)
  { right := 0 :: unknowns
    rows := standard.limits.zipIdx.map fun entry =>
      (standard.firstSlack + entry.2, slack unknowns entry.1)
    goal := ⟨0, -1 :: unknowns.map fun _ => 0⟩ }

/-- The slack that is most negative, when one is. -/
def worst? (dictionary : Dictionary) : Option Nat :=
  let lowest := dictionary.rows.foldl
    (fun best entry =>
      let limit := match best with
        | some held => held.2
        | none => 0
      if entry.2.constant < limit then some (entry.1, entry.2.constant) else best)
    (none : Option (Nat × Rat))
  lowest.map Prod.fst

/-- The dictionary without the artificial variable, once that can be zero. -/
def withoutArtificial (dictionary : Dictionary) : Dictionary :=
  match dictionary.right.idxOf? 0 with
  | some position => dictionary.dropped position
  | none =>
      let exchange := (dictionary.rows.lookup 0).bind fun row =>
        row.coefficients.findIdx? (· ≠ 0)
      match exchange with
      | some position => (dictionary.pivot position 0).dropped position
      | none => { dictionary with rows := dictionary.rows.filter fun entry => entry.1 ≠ 0 }

/-- The multipliers of the program's rows that a dictionary's prices amount to. -/
def multipliers (standard : Standard) (rowCount : Nat) (dictionary : Dictionary) : List Rat :=
  let prices := standard.rowLimits.zipIdx.map fun entry =>
    (entry.1.row, entry.1.sign * dictionary.price (standard.firstSlack + entry.2))
  (List.range rowCount).map fun row =>
    total (prices.map fun entry => if entry.1 = row then entry.2 else 0)

/-- The program's variables at given values of the encoded ones. -/
def decode (standard : Standard) (value : Nat → Rat) : List Rat :=
  standard.encodings.map fun encoding =>
    encoding.constant + total (encoding.terms.map fun term => term.2 * value term.1)

/-- The change of the program's variables under a change of the encoded ones. -/
def decodeDirection (standard : Standard) (change : Nat → Rat) : List Rat :=
  standard.encodings.map fun encoding =>
    total (encoding.terms.map fun term => term.2 * change term.1)

/-- The best point from a dictionary that stands at some point. -/
def improve (standard : Standard) (rowCount : Nat) (dictionary : Dictionary) :
    Option Certificate :=
  let begun := { dictionary with goal := dictionary.rewritten standard.goal }
  match begun.maximise standard.turns with
  | .optimal final =>
      some (.optimal (standard.decode final.value) (standard.multipliers rowCount final))
  | .unbounded final position =>
      some (.unbounded (standard.decode final.value)
        (standard.decodeDirection (final.slope position)))
  | .unfinished => none

/-- A certificate for a program. -/
def search (standard : Standard) (rowCount : Nat) : Option Certificate :=
  let start := standard.start
  match worst? start with
  | none => standard.improve rowCount (withoutArtificial start)
  | some leaving =>
      match (start.pivot 0 leaving).maximise standard.turns with
      | .optimal final =>
          if final.goal.constant < 0 then
            some (.infeasible (standard.multipliers rowCount final))
          else standard.improve rowCount (withoutArtificial final)
      | _ => none

end Standard

/-- The simplex method. -/
def simplex : Solver := fun program =>
  match (Standard.ofProgram program).search program.rows.length with
  | some certificate => certificate.check program
  | none => .unknown

end CuttingPlanes.Linear
