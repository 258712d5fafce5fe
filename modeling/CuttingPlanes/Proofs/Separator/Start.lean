import CuttingPlanes.Proofs.Separator.Turning
import Mathlib.Algebra.BigOperators.Field
import Mathlib.Algebra.Order.BigOperators.Group.Finset
import Mathlib.Data.Rat.Cast.Order
import Mathlib.Tactic.NormNum

/-! Which candidate a draw puts in front: the first one comes there twice as often as any other. -/

namespace CuttingPlanes

namespace Random

/-- How much of some generators meets a condition. -/
noncomputable def share {ρ : Type} (generators : Finset ρ) (condition : ρ → Prop) : ℚ :=
  open Classical in (generators.filter condition).card / generators.card

end Random

namespace Rotation

variable {ρ γ : Type} [DecidableEq γ]

/-- A draw of the number that the generator is. -/
def numbered : Random.Draw Nat := fun _ => return .int (← Action.get)

end Rotation

end CuttingPlanes
