import CuttingPlanes.Proofs.Loop.Chronicle
import CuttingPlanes.Proofs.Loop.Timing
import CuttingPlanes.Proofs.Relaxation.Tightening
import CuttingPlanes.Proofs.View

/-! Loops that add nothing but rows to a program: the objectives that they record never improve. -/

namespace CuttingPlanes

variable {σ κ A K ι N : Type} [Scalar K]

/-- What a computation does to a program in view is to add rows, whether it fails or not. -/
def Action.AddsRows {α : Type} (view : σ → Relaxation K ι N × Held K) (action : Action σ α) :
    Prop :=
  ∀ state, action.Meets state (fun _ after => (view state).2.Extends (view after).2)
    fun _ after => (view state).2.Extends (view after).2

/-- The objective never improves from one solved iteration to a later one. -/
def Round.NeverImprove (objective : Objective) (rounds : List (Round K LpStatus)) : Prop :=
  rounds.Pairwise fun first second => first.status = .optimal → second.status = .optimal →
    objective.NeverImproves first.objective second.objective

/-- An iteration that has recorded the answer to a model. -/
def Round.Records (solver : Linear.Solver) (held : Held K) (round : Round K LpStatus) : Prop :=
  ∃ columns rows, round.status = (held.answer solver columns rows).status ∧
    round.objective = (held.answer solver columns rows).objective

/-- A record of answers to models that the present one extends. -/
structure Held.Descends (solver : Linear.Solver) (objective : Objective) (held : Held K)
    (rounds : List (Round K LpStatus)) : Prop where
  sense : held.objective = objective
  columns : held.columns ≠ []
  past : ∀ round ∈ rounds, ∃ past : Held K, past.Extends held ∧ round.Records solver past
  neverImprove : Round.NeverImprove objective rounds

namespace Held.Descends

variable {solver : Linear.Solver} {objective : Objective} {held after : Held K}
  {rounds : List (Round K LpStatus)} (descends : held.Descends solver objective rounds)

include descends

/-- The answer to the present model is recorded behind those before. -/
theorem append (truthful : ∀ program, (solver program).IsTrue program)
    {round : Round K LpStatus} (records : round.Records solver held) :
    held.Descends solver objective (rounds ++ [round]) where
  sense := descends.sense
  columns := descends.columns
  past other member := by
    rcases List.mem_append.1 member with before | new
    · exact descends.past other before
    · obtain rfl := List.mem_singleton.1 new
      exact ⟨held, Held.Extends.refl held, records⟩
  neverImprove := by
    refine List.pairwise_append.2 ⟨descends.neverImprove, List.pairwise_singleton _ _, ?_⟩
    intro earlier before last new
    obtain rfl := List.mem_singleton.1 new
    intro optimal also
    -- The model of each earlier iteration has been extended to the present one.
    obtain ⟨past, extended, _, _, status, told⟩ := descends.past earlier before
    obtain ⟨_, _, status', told'⟩ := records
    have columns : past.columns ≠ [] := extended.columns ▸ descends.columns
    rw [told, told', ← descends.sense, extended.objective]
    exact extended.neverImproves truthful columns _ _ _ _ (status ▸ optimal) (status' ▸ also)

end Held.Descends

variable [Ordinal ι] [RowName N]

/-- A loop that solves a program as it stands and adds nothing but rows to it. -/
structure Supervisor.OnlyAddsRows (solver : Linear.Solver) (view : σ → Relaxation K ι N × Held K)
    (supervisor : Supervisor σ (LpAnswer K) LpStatus A K) : Prop where
  solve : Action.Shows view Eq supervisor.task.solve (Relaxation.solve (Held.backend solver))
  separate : supervisor.task.separate.AddsRows view
  watchers : ∀ watcher ∈ supervisor.watchers, ∀ isSolved round,
    (watcher isSolved round).AddsRows view

namespace Supervisor

variable {solver : Linear.Solver} {view : σ → Relaxation K ι N × Held K}
  {supervisor : Supervisor σ (LpAnswer K) LpStatus A K}

/-- A solve gives the answer to the model in view, which stays as it is. -/
theorem OnlyAddsRows.solve_meets (adds : supervisor.OnlyAddsRows solver view) (state : σ) :
    supervisor.task.solve.Meets state
      (fun answer after => (view after).2 = (view state).2 ∧ ∃ columns rows,
        answer = (view state).2.answer solver columns rows) fun _ _ => False := by
  have met : (Relaxation.solve (Held.backend solver)).Meets (view state)
      (fun answer after => after.2 = (view state).2 ∧ ∃ columns rows,
        answer = (view state).2.answer solver columns rows) fun _ _ => False :=
    Held.meets_solve.2 ⟨rfl, _, _, rfl⟩
  unfold Action.Meets at met ⊢
  rwa [adds.solve.run_eq state] at met

variable [Answer A]

end Supervisor

namespace Supervisor

end Supervisor

end CuttingPlanes
