import CuttingPlanes.Datum.Arithmetic
import CuttingPlanes.Datum.Text
import CuttingPlanes.Enumeration
import CuttingPlanes.Random.Generator
import CuttingPlanes.Text.Form

/-! Candidates turned around by an offset, given or drawn at random. -/

namespace CuttingPlanes

/-- The members from an offset on and then those before it; offsets count around the list. -/
def rotate {α : Type} (items : List α) (offset : Int) : List α :=
  let start := (offset % items.length).toNat
  items.drop start ++ items.take start

/-- The whole number that a value stands for as an offset. -/
def offsetOf : Datum → Except Fault Int
  | .bool value => .ok (if value then 1 else 0)
  | .int value => .ok value
  | .float _ => .error .notASlice
  | .undefined _ => .error .notASlice
  -- A text is taken for a form to be filled in, and the filled form is no position.
  | .text value => do
      Text.Form.check value
      throw .notASlice
  | value => .error (.unsupportedOperands "%=" value.kind "int")

/-- A list turned by a value; the empty list takes any. -/
def rotateBy {α : Type} (items : List α) (offset : Datum) : Except Fault (List α) :=
  if items.isEmpty then .ok [] else rotate items <$> offsetOf offset

/-- A generator of offsets with the last one that it gave. -/
structure Rotation (ρ : Type) where
  generator : ρ
  lastOffset : Option Datum

namespace Rotation

variable {ρ σ γ : Type}

/-- A rotation that has not been used. -/
def ofGenerator (generator : ρ) : Rotation ρ := ⟨generator, none⟩

/-- A fresh offset, at most the number of candidates. -/
def drawOffset (draw : Random.Draw ρ) (count : Nat) : Action (Rotation ρ) Datum := fun rotation =>
  let outcome := (draw count).run rotation.generator
  match outcome.result with
  | .ok offset => ⟨.ok offset, ⟨outcome.state, some offset⟩, outcome.log⟩
  | .error cause => ⟨.error cause, { rotation with generator := outcome.state }, outcome.log⟩

/-- A list turned by a fresh offset, which is drawn for the empty list too. -/
def apply (draw : Random.Draw ρ) (items : List γ) : Action (Rotation ρ) (List γ) := do
  Action.ofExcept (rotateBy items (← drawOffset draw items.length))

/-- The candidates of a source, all produced first and then turned by a fresh offset. -/
def reorder (draw : Random.Draw ρ) (fuel : Nat) (source : Source (Rotation ρ × σ) γ) :
    Action (Rotation ρ × σ) (Source (Rotation ρ × σ) γ) := do
  let items ← source.collect fuel
  return Source.ofList (← (apply draw items).onFirst)

/-- The line that shows a rotation. -/
def shown (rotation : Rotation ρ) : String :=
  "RandomRotate(last_offset=" ++ (rotation.lastOffset.getD .nothing).plain ++ ")"

end Rotation

end CuttingPlanes
