import CuttingPlanes.Rotation
import CuttingPlanes.Separator.Family
import CuttingPlanes.Separator.Tally

/-! Separators: one call looks through a family and commits at most one violated candidate. -/

namespace CuttingPlanes

/-- The generator of a policy for a seed; a policy that never draws takes any seed. -/
def Policy.generator (policy : Policy) (seed : Datum) : Except Fault Random.Generator :=
  if policy = .shuffled then Random.Generator.ofDatum seed
  else .ok (Random.Generator.ofSeed 0)

/-- How the candidates are looked through. -/
inductive Search (σ μ : Type) where
  /-- All of them, replacing the best measure only where the comparison says so. -/
  | deepest (exceeds : μ → μ → Action σ Bool)
  /-- Up to the first whose measure counts as a violation. -/
  | first

/-- A family with a way to look through it. -/
structure Separator (σ γ μ : Type) where
  policy : Policy
  /-- The family, its candidates in the order in which they are looked at. -/
  family : Family σ γ μ
  search : Search σ μ

namespace Separator

variable {σ τ ρ γ μ : Type}

/-- The name under which separators report. -/
def source : String := "openrg.separation.base"

/-- A separator that takes the candidate of greatest measure. -/
def deepest (family : Family σ γ μ) (exceeds : μ → μ → Action σ Bool) : Separator σ γ μ :=
  ⟨.deepest, family, .deepest exceeds⟩

/-- A separator that takes the first violated candidate of the reordered family. -/
def first (family : Family σ γ μ) (reorder : Source σ γ → Action σ (Source σ γ)) :
    Separator σ γ μ :=
  ⟨.first, family.reordered reorder, .first⟩

/-- A separator that takes the first violated candidate of the family turned at random. -/
def shuffled (family : Family σ γ μ) (draw : Random.Draw ρ) (fuel : Nat) :
    Separator (Rotation ρ × σ) γ μ :=
  ⟨.shuffled, family.onSecond.reordered (Rotation.reorder draw fuel), .first⟩

/-- A separator whose state is the second part of a larger one. -/
def onSecond (separator : Separator σ γ μ) : Separator (τ × σ) γ μ where
  policy := separator.policy
  family := separator.family.onSecond
  search :=
    match separator.search with
    | .deepest exceeds => .deepest fun best measure => (exceeds best measure).onSecond
    | .first => .first

/-- The separator of a policy; only one policy uses the comparison, the order or the generator. -/
def ofPolicy (policy : Policy) (family : Family σ γ μ) (exceeds : μ → μ → Action σ Bool)
    (reorder : Source σ γ → Action σ (Source σ γ)) (draw : Random.Draw ρ) (fuel : Nat) :
    Separator (Rotation ρ × σ) γ μ :=
  match policy with
  | .deepest => (deepest family exceeds).onSecond
  | .first => (first family reorder).onSecond
  | .shuffled => shuffled family draw fuel

/-- The measure of one candidate, counted before it is asked for. -/
def evaluate (separator : Separator σ γ μ) (candidate : γ) : Action (Tally × σ) μ := do
  Tally.count Tally.looked
  (separator.family.measure candidate).onSecond

/-- The first candidate of a source, from a position on, whose measure counts as a violation. -/
def scanFirst [Measure μ] (separator : Separator σ γ μ) (candidates : Source σ γ) :
    (fuel : Nat) → (position : Nat) → Action (Tally × σ) (Option γ)
  | 0, _ => Action.unfinished
  | fuel + 1, position => do
      match ← (candidates.next position).onSecond with
      | none => return none
      | some candidate =>
          if Measure.countsTrue (← separator.evaluate candidate) then return some candidate
          else separator.scanFirst candidates fuel (position + 1)

/-- Whether a measure takes the place of the best one so far; the first present one always does. -/
def replaces (exceeds : μ → μ → Action σ Bool) (best : Option (γ × μ)) (measure : μ) :
    Action σ Bool :=
  match best with
  | none => pure true
  | some (_, held) => exceeds held measure

/-- The candidate of greatest measure among the best so far and those from a position on. -/
def scanDeepest [Measure μ] (separator : Separator σ γ μ) (exceeds : μ → μ → Action σ Bool)
    (candidates : Source σ γ) :
    (fuel : Nat) → (position : Nat) → (best : Option (γ × μ)) → Action (Tally × σ) (Option γ)
  | 0, _, _ => Action.unfinished
  | fuel + 1, position, best => do
      match ← (candidates.next position).onSecond with
      | none => return best.map Prod.fst
      | some candidate => do
          let measure ← separator.evaluate candidate
          if Measure.present measure then
            if ← (replaces exceeds best measure).onSecond then
              separator.scanDeepest exceeds candidates fuel (position + 1)
                (some (candidate, measure))
            else separator.scanDeepest exceeds candidates fuel (position + 1) best
          else separator.scanDeepest exceeds candidates fuel (position + 1) best

/-- The candidate to commit, when there is one. -/
def select [Measure μ] (separator : Separator σ γ μ) (fuel : Nat) :
    Action (Tally × σ) (Option γ) := do
  let candidates ← separator.family.enumerate.onSecond
  match separator.search with
  | .deepest exceeds => separator.scanDeepest exceeds candidates fuel 0 none
  | .first => separator.scanFirst candidates fuel 0

/-- One report of a separator. -/
def note (separator : Separator σ γ μ) (message : String) : LogEntry :=
  ⟨.debug, source, separator.policy.label ++ ": " ++ message⟩

/-- One call: commits a violated candidate and says whether there was one. -/
def call [Measure μ] (separator : Separator σ γ μ) (fuel : Nat) : Action (Tally × σ) Bool := do
  Tally.count Tally.called
  match ← separator.select fuel with
  | none => do
      Action.report (separator.note "no violated candidate")
      return false
  | some candidate => do
      Action.report (separator.note ("adding candidate " ++ separator.family.describe candidate))
      (separator.family.commit candidate).onSecond
      Tally.count Tally.added
      return true

end Separator

end CuttingPlanes
