import CuttingPlanes.Loop.Supervisor

/-! Clocks whose readings are known beforehand. -/

namespace CuttingPlanes

/-- A clock that shows given readings first and then goes on by even steps. -/
structure Ticker (K : Type) where
  now : K
  step : K
  readings : List K

/-- The next reading; a step that cannot be taken leaves the time where it is. -/
def Ticker.tick {K : Type} [Scalar K] : Clock (Ticker K) K := fun ticker =>
  match ticker.readings with
  | reading :: rest => (reading, { ticker with now := reading, readings := rest })
  | [] =>
      let now := match Scalar.add ticker.now ticker.step with
        | .ok later => later
        | .error _ => ticker.now
      (now, { ticker with now := now })

end CuttingPlanes
