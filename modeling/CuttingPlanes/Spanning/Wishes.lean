import CuttingPlanes.Relaxation.Held
import CuttingPlanes.Settings.Basic
import CuttingPlanes.Spanning.Solve

/-! What is asked of a run on a spanning-tree problem; settings supply what is left open. -/

namespace CuttingPlanes.Spanning

/-- What is asked of a run. -/
structure Wishes where
  /-- The name of a policy; one that counts as false leaves the policy open. -/
  strategy : Datum
  seed : Option Datum
  violation : Option Datum
  limits : Option (Limits Datum)
  /-- Whether progress is reported to everyone, where no limits are given. -/
  verbose : Bool
  /-- Whether reports are read. -/
  isHeard : Bool

namespace Wishes

/-- The name of the policy. -/
def policyName (wishes : Wishes) (settings : Settings) : Datum :=
  if wishes.strategy.countsTrue then wishes.strategy else settings.defaultStrategy

/--
The policy and its generator. A seed of the wish is used at once; the seed of the settings only by
the policy that draws.
-/
def drawn (wishes : Wishes) (settings : Settings) : Except Fault (Policy × Random.Generator) := do
  let own ← wishes.seed.mapM Random.Generator.ofDatum
  let policy ← Policy.ofDatum (wishes.policyName settings)
  match own with
  | some generator => return (policy, generator)
  | none => return (policy, ← policy.generator settings.seed)

/-- The choices of a run. -/
def choices (wishes : Wishes) (settings : Settings) : Choices Datum where
  limits :=
    { wishes.limits.getD { Limits.none with verbose := wishes.verbose } with
      isHeard := wishes.isHeard }
  policy := Prod.fst <$> wishes.drawn settings
  violation := wishes.violation.getD (settings.tolerances.ofWord "violation")
  integrality := settings.tolerances.ofWord "integrality"

/-- Solves a problem as it is asked, where there is a solver. -/
def solve {κ : Type} (wishes : Wishes) (settings : Settings) (solver : Option Linear.Solver)
    (problem : Problem Datum Datum Datum) (clock : Clock κ Datum) (fuel : Nat) :
    Action κ (Tree Datum Datum) :=
  match solver with
  | none => Action.raise .solverMissing
  | some solver => do
      let backend : Backend (Held Datum) Datum Datum Datum := Held.backend solver
      let generator := match wishes.drawn settings with
        | .ok found => found.2
        -- The run is refused before anything is drawn.
        | .error _ => Random.Generator.ofSeed 0
      solveAfresh backend (Held.empty .least none) problem (wishes.choices settings)
        (Random.Generator.draw fuel) generator clock fuel

end Wishes

end CuttingPlanes.Spanning
