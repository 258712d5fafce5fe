import CuttingPlanes.Rotation
import CuttingPlanes.Separator.Family

/-! Comparisons of measures and orders of candidates that can be chosen by name. -/

namespace CuttingPlanes

/-- How two measures are compared. -/
inductive Comparison where
  | less
  | greater
  | atMost
  /-- By their sizes without signs. -/
  | smaller
  | always
  | never
  /-- By their lengths. -/
  | shorter
  | failing (fault : Fault)

/-- The comparison of a name. -/
def Comparison.ofName? : String → Option Comparison
  | "less" => some less
  | "greater" => some greater
  | "le" => some atMost
  | "abs" => some smaller
  | "always" => some always
  | "never" => some never
  | "len" => some shorter
  | _ => none

/-- Whether the second measure takes the place of the first one. -/
def Comparison.apply : Comparison → Datum → Datum → Except Fault Bool
  | less, best, measure => Datum.less best measure
  | greater, best, measure => Datum.order .greater best measure
  | atMost, best, measure => Datum.order .atMost best measure
  | smaller, best, measure => do Datum.less (← best.magnitude) (← measure.magnitude)
  | always, _, _ => .ok true
  | never, _, _ => .ok false
  | shorter, best, measure => do
      let length ← best.length
      return decide (length < (← measure.length))
  | failing fault, _, _ => .error fault

/-- The order in which candidates are looked at. -/
inductive Reordering where
  | identity
  | reversed
  /-- All but the first. -/
  | tail
  /-- None of them, which leaves them unproduced. -/
  | empty
  /-- Every other one, produced on demand. -/
  | evens
  | rotated (offset : Datum)
  | failing (fault : Fault)

namespace Reordering

/-- The order of a name. -/
def ofName? : String → Option Reordering
  | "identity" => some identity
  | "reverse" => some reversed
  | "tail" => some tail
  | "empty" => some empty
  | "evens" => some evens
  | _ => none

/-- Every other member of a source; those in between are produced too. -/
def everyOther {σ γ : Type} (source : Source σ γ) : Source σ γ :=
  ⟨fun position =>
    if position = 0 then source.next 0
    else do
      match ← source.next (2 * position - 1) with
      | none => return none
      | some _ => source.next (2 * position)⟩

/-- A source in the chosen order. -/
def apply {σ γ : Type} (reordering : Reordering) (fuel : Nat) (source : Source σ γ) :
    Action σ (Source σ γ) :=
  match reordering with
  | identity => return source
  | reversed => do return Source.ofList (← source.collect fuel).reverse
  | tail => do return Source.ofList ((← source.collect fuel).drop 1)
  | empty => return Source.ofList []
  | evens => return everyOther source
  | rotated offset => do
      return Source.ofList (← Action.ofExcept (rotateBy (← source.collect fuel) offset))
  | failing fault => Action.raise fault

end Reordering

end CuttingPlanes
