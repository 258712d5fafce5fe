import CuttingPlanes.Proofs.Loop.View
import CuttingPlanes.Proofs.Relaxation.View
import CuttingPlanes.Proofs.Separator.View
import CuttingPlanes.Spanning.Solve

/-! Runs over a backend that, seen through a view of its state, does what another one does. -/

namespace CuttingPlanes.Spanning

variable {α β κ ρ K ι L N : Type} [Scalar K] [Ordinal ι] [RowName N] {view : α → β}
  {shown : Backend α K ι N} {backend : Backend β K ι N}

theorem shows_addColumns (shows : shown.Shows view backend) (edges : List (Edge ι K)) :
    Action.Shows (Prod.map id view) Eq (addColumns shown edges) (addColumns backend edges) := by
  induction edges with
  | nil => exact Action.shows_pure rfl
  | cons edge rest ih =>
    -- One column after the other is recorded and called for.
    refine (Relaxation.shows_addColumn shows _ _ _ _).andThen fun column => ?_
    exact ih.andThen fun columns => Action.shows_pure rfl

/-- The program is built in the same way. -/
theorem shows_build (shows : shown.Shows view backend) (problem : Problem K ι L) :
    Action.Shows (Prod.map id view) Eq (build shown problem) (build backend problem) := by
  refine (shows_addColumns shows problem.edges).andThen fun columns => ?_
  exact (Relaxation.shows_addRow shows _).andThen fun _ => Action.shows_pure rfl

/-- The subtour rows are measured on the record, which the view leaves alone. -/
theorem Subtours.shows_family (shows : shown.Shows view backend) (cuts : Subtours K ι L) :
    (cuts.family shown).Shows (Prod.map id view) (cuts.family backend) where
  enumerate := Action.shows_pure fun rank =>
    (Action.shows_ofExcept _).andThen fun things => Action.shows_pure rfl
  measure nodes := Action.shows_get fun state => Action.shows_ofExcept _
  commit nodes := by
    refine (Action.shows_ofExcept _).andThen fun row => ?_
    exact (Relaxation.shows_addRow shows row).andThen fun _ => Action.shows_pure rfl
  describe := rfl

theorem shows_exceeds (best measure : Option K) :
    Action.Shows view Eq (exceeds best measure) (exceeds best measure) := by
  -- Measures are compared only when both are there.
  cases best with
  | none => exact Action.shows_pure rfl
  | some held =>
    cases measure with
    | none => exact Action.shows_pure rfl
    | some found => exact Action.shows_ofExcept _

theorem shows_task (shows : shown.Shows view backend) (cuts : Subtours K ι L) (policy : Policy)
    (draw : Random.Draw ρ) (fuel : Nat) :
    (task shown cuts policy draw fuel).Shows (Prod.map id (Prod.map id (Prod.map id view)))
      (task backend cuts policy draw fuel) where
  solve := (Relaxation.shows_solve shows).onSecond.onSecond
  separate := (Separator.shows_ofPolicy policy (cuts.shows_family shows) shows_exceeds
    (fun _ _ same => Action.shows_pure same) draw fuel).call fuel
  optimal := rfl

/-- A run over a backend that shows another one shows the run over the other one. -/
theorem shows_solve (shows : shown.Shows view backend) (problem : Problem K ι L)
    (choices : Choices K) (draw : Random.Draw ρ) (clock : Clock κ K) (fuel : Nat) :
    Action.Shows (Prod.map id (Prod.map id (Prod.map id (Prod.map id view)))) Eq
      (solve shown problem choices draw clock fuel)
      (solve backend problem choices draw clock fuel) := by
  refine (shows_build shows problem).onSecond.onSecond.onSecond.andThen fun columns => ?_
  refine (Action.shows_ofExcept _).andThen fun policy => ?_
  -- The policy and the columns are the same, so that the loops run on tasks that are alike.
  have supervised := Supervisor.shows_ofTask
    (shows_task shows ⟨problem, columns, choices.violation⟩ policy draw fuel) choices.limits
  refine (supervised.solve clock fuel).andThen fun report => ?_
  exact Action.shows_get fun state => Action.shows_ofExcept _

/-- The state of a run without what has been heard of its backend. -/
def RunState.unheard : RunState κ ρ (List (Call K ι N) × β) K ι N → RunState κ ρ β K ι N :=
  Prod.map id (Prod.map id (Prod.map id (Prod.map id Prod.snd)))

/-- Listening to a backend leaves the runs over it as they are. -/
theorem solve_listened (backend : Backend β K ι N) (problem : Problem K ι L) (choices : Choices K)
    (draw : Random.Draw ρ) (clock : Clock κ K) (fuel : Nat) (time : κ) (generator : ρ)
    (start : β) (heard : List (Call K ι N)) :
    let listened := (solve backend.listened problem choices draw clock fuel).run
      (RunState.begun time generator (heard, start))
    (solve backend problem choices draw clock fuel).run (RunState.begun time generator start) =
      ⟨listened.result, listened.state.unheard, listened.log⟩ :=
  (shows_solve backend.shows_listened problem choices draw clock fuel).run_eq
    (RunState.begun time generator (heard, start))

/-- The calls of a run that its backend has returned from, in order. -/
def callsOf (backend : Backend β K ι N) (problem : Problem K ι L) (choices : Choices K)
    (draw : Random.Draw ρ) (clock : Clock κ K) (fuel : Nat) (time : κ) (generator : ρ)
    (start : β) : List (Call K ι N) :=
  ((solve backend.listened problem choices draw clock fuel).run
    (RunState.begun time generator ([], start))).state.2.2.2.2.1

end CuttingPlanes.Spanning
