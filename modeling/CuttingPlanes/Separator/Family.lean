import CuttingPlanes.Enumeration
import CuttingPlanes.Scalar

/-! Families of candidate rows, each with a measure of how far it is violated. -/

namespace CuttingPlanes

/-- A measure of violation, which may be absent. -/
class Measure (μ : Type) where
  /-- Whether there is a measure at all; zero is one. -/
  present : μ → Bool
  /-- Whether the measure counts as a violation by itself. -/
  countsTrue : μ → Bool

instance : Measure Datum where
  present measure := !measure.isNothing
  countsTrue := Datum.countsTrue

instance {K : Type} [Scalar K] : Measure (Option K) where
  present := Option.isSome
  countsTrue measure := measure.any Scalar.countsTrue

instance : Answer Datum := ⟨Datum.countsTrue⟩

/-- How candidates are produced, measured, committed and named. -/
structure Family (σ γ μ : Type) where
  enumerate : Action σ (Source σ γ)
  measure : γ → Action σ μ
  commit : γ → Action σ Unit
  describe : γ → String

namespace Family

variable {σ τ γ μ : Type}

/-- A family whose state is the second part of a larger one. -/
def onSecond (family : Family σ γ μ) : Family (τ × σ) γ μ where
  enumerate := Source.onSecond <$> family.enumerate.onSecond
  measure candidate := (family.measure candidate).onSecond
  commit candidate := (family.commit candidate).onSecond
  describe := family.describe

/-- A family whose candidates are produced in another order. -/
def reordered (family : Family σ γ μ) (reorder : Source σ γ → Action σ (Source σ γ)) :
    Family σ γ μ :=
  { family with enumerate := family.enumerate >>= reorder }

end Family

end CuttingPlanes
