/-!
Dictionaries: some variables written as sums of the others, and the steps that exchange two of
them. Every variable is at least zero and has a number of its own.
-/

namespace CuttingPlanes.Linear

/-- A constant and the coefficients of the variables on the right side. -/
structure Combination where
  constant : Rat
  coefficients : List Rat

namespace Combination

/-- A combination with a multiple of another one added. -/
def plus (left : Combination) (factor : Rat) (right : Combination) : Combination :=
  if factor = 0 then left
  else ⟨left.constant + factor * right.constant,
    List.zipWith (fun a b => if b = 0 then a else a + factor * b) left.coefficients
      right.coefficients⟩

/-- The coefficient at a position on the right side. -/
def coefficient (combination : Combination) (position : Nat) : Rat :=
  combination.coefficients.getD position 0

/-- A combination with the coefficient at a position replaced. -/
def withAt (combination : Combination) (position : Nat) (value : Rat) : Combination :=
  { combination with coefficients := combination.coefficients.set position value }

end Combination

/-- Variables on the left side with their combinations, those on the right, and what to maximise. -/
structure Dictionary where
  right : List Nat
  rows : List (Nat × Combination)
  goal : Combination

namespace Dictionary

/-- The combination of the entering variable once it stands on the left side. -/
def solved (position : Nat) (row : Combination) : Combination :=
  let pivot := row.coefficient position
  let scaled : Combination :=
    ⟨-row.constant / pivot, row.coefficients.map fun a => if a = 0 then 0 else -a / pivot⟩
  scaled.withAt position (1 / pivot)

/-- A combination with the entering variable replaced by what it equals. -/
def substituted (position : Nat) (entering : Combination) (row : Combination) : Combination :=
  (row.withAt position 0).plus (row.coefficient position) entering

/-- The dictionary after the variable at a position has changed sides with one on the left. -/
def pivot (dictionary : Dictionary) (position leaving : Nat) : Dictionary :=
  match dictionary.rows.lookup leaving, dictionary.right[position]? with
  | some row, some entering =>
      let combination := solved position row
      { right := dictionary.right.set position leaving
        rows := dictionary.rows.map fun entry =>
          if entry.1 = leaving then (entering, combination)
          else (entry.1, substituted position combination entry.2)
        goal := substituted position combination dictionary.goal }
  | _, _ => dictionary

/-- The variable of least number that would raise the goal, with its position. -/
def entering? (dictionary : Dictionary) : Option (Nat × Nat) :=
  let gains := (dictionary.right.zip dictionary.goal.coefficients).zipIdx.filterMap fun entry =>
    if 0 < entry.1.2 then some (entry.1.1, entry.2) else none
  gains.foldl
    (fun best gain =>
      match best with
      | some held => if gain.1 < held.1 then some gain else best
      | none => some gain)
    none

/-- The variable on the left that first falls to zero, of those the one of least number. -/
def leaving? (dictionary : Dictionary) (position : Nat) : Option Nat :=
  let limits := dictionary.rows.filterMap fun entry =>
    let slope := entry.2.coefficient position
    if slope < 0 then some (entry.1, entry.2.constant / -slope) else none
  let tightest := limits.foldl
    (fun best limit =>
      match best with
      | some held =>
          if limit.2 < held.2 ∨ (limit.2 = held.2 ∧ limit.1 < held.1) then some limit else best
      | none => some limit)
    none
  tightest.map Prod.fst

/-- How a search over dictionaries ends. -/
inductive Search where
  | optimal (final : Dictionary)
  /-- The variable at a position raises the goal without an end. -/
  | unbounded (final : Dictionary) (position : Nat)
  | unfinished

/-- Raises the goal for as long as that is possible. -/
def maximise : (fuel : Nat) → Dictionary → Search
  | 0, _ => .unfinished
  | fuel + 1, dictionary =>
      match dictionary.entering? with
      | none => .optimal dictionary
      | some (_, position) =>
          match dictionary.leaving? position with
          | none => .unbounded dictionary position
          | some leaving => maximise fuel (dictionary.pivot position leaving)

/-- The value of a variable when those on the right are zero. -/
def value (dictionary : Dictionary) (unknown : Nat) : Rat :=
  ((dictionary.rows.lookup unknown).map Combination.constant).getD 0

/-- The change of a variable when the one at a position on the right grows by one. -/
def slope (dictionary : Dictionary) (position unknown : Nat) : Rat :=
  if dictionary.right[position]? = some unknown then 1
  else ((dictionary.rows.lookup unknown).map fun row => row.coefficient position).getD 0

/-- How much a variable on the right lowers the goal; one on the left lowers nothing. -/
def price (dictionary : Dictionary) (unknown : Nat) : Rat :=
  match dictionary.right.idxOf? unknown with
  | some position => -dictionary.goal.coefficient position
  | none => 0

/-- The dictionary without a variable on the right, which stays zero. -/
def dropped (dictionary : Dictionary) (position : Nat) : Dictionary :=
  let without (row : Combination) : Combination :=
    { row with coefficients := row.coefficients.eraseIdx position }
  { right := dictionary.right.eraseIdx position
    rows := dictionary.rows.map fun entry => (entry.1, without entry.2)
    goal := without dictionary.goal }

/-- A sum of multiples of variables, written in those on the right. -/
def rewritten (dictionary : Dictionary) (terms : List (Nat × Rat)) : Combination :=
  let start : Combination := ⟨0, dictionary.right.map fun _ => 0⟩
  terms.foldl
    (fun total term =>
      match dictionary.right.idxOf? term.1 with
      | some position => total.withAt position (total.coefficient position + term.2)
      | none =>
          match dictionary.rows.lookup term.1 with
          | some row => total.plus term.2 row
          | none => total)
    start

end Dictionary

end CuttingPlanes.Linear
