import CuttingPlanes.Proofs.Loop.Trace
import CuttingPlanes.Proofs.Outcome

/-! The calls that a supervised run makes of all it was given, the watchers among them. -/

namespace CuttingPlanes

variable {σ τ κ R S A K : Type}

namespace Event

/-- Whether a call is a solve. -/
def isSolve : Event → Bool
  | solve => true
  | _ => false

/-- The number of solves among some calls. -/
def solves (calls : List Event) : Nat := calls.countP isSolve

variable (calls : List Event)

@[simp] theorem solves_append_solve : solves (calls ++ [solve]) = solves calls + 1 :=
  List.countP_append

@[simp] theorem solves_append_separate : solves (calls ++ [separate]) = solves calls :=
  List.countP_append

@[simp] theorem solves_append_watch (watcher iteration : Nat) (seen : Bool) :
    solves (calls ++ [watch watcher iteration seen]) = solves calls :=
  List.countP_append

variable {calls}

/--
Every watcher is told whether a run had finished before this one.

The iteration that it is shown is the number of solves made by then.
-/
def Told (isSolved : Bool) : List Event → Prop :=
  Throughout fun before event => ∀ watcher iteration seen,
    event = watch watcher iteration seen → seen = isSolved ∧ iteration = solves before

end Event

namespace Action

/-- A computation that notes the call of which it is the answer. -/
def announced {α : Type} (event : Event) (action : Action σ α) : Action (List Event × σ) α := do
  Task.note event
  action.onSecond

theorem shows_announced {α : Type} (event : Event) (action : Action σ α) :
    Shows Prod.snd Eq (announced event action) action :=
  fun state => shows_snd action (state.1 ++ [event], state.2)

@[simp] theorem meets_announced {α : Type} {event : Event} {action : Action σ α}
    {calls : List Event} {state : σ} {given : α → List Event × σ → Prop}
    {failed : Interrupt → List Event × σ → Prop} :
    Meets (announced event action) (calls, state) given failed ↔
      Meets action state (fun value after => given value (calls ++ [event], after))
        fun cause after => failed cause (calls ++ [event], after) := Iff.rfl

end Action

namespace Supervisor

/-- A supervisor that does something else for each call, which it is told of. -/
def wrapped (supervisor : Supervisor σ R S A K)
    (wrap : ∀ {α : Type}, Event → Action σ α → Action τ α) : Supervisor τ R S A K where
  task :=
    { solve := wrap .solve supervisor.task.solve
      separate := wrap .separate supervisor.task.separate
      optimal := supervisor.task.optimal }
  limits := supervisor.limits
  watchers := supervisor.watchers.mapIdx fun position watcher isSolved round =>
    wrap (.watch position round.iteration isSolved) (watcher isSolved round)
  last := supervisor.last

/-- What is done for a call is out of view, if the call is not. -/
theorem shows_wrapped (supervisor : Supervisor σ R S A K) {view : τ → σ}
    {wrap : ∀ {α : Type}, Event → Action σ α → Action τ α}
    (shows : ∀ {α : Type} (event : Event) (action : Action σ α),
      Action.Shows view Eq (wrap event action) action) :
    (supervisor.wrapped wrap).Shows view supervisor where
  task := ⟨shows .solve _, shows .separate _, rfl⟩
  limits := rfl
  watchers := by
    rw [List.forall₂_iff_get]
    refine ⟨List.length_mapIdx, fun position within _ isSolved round => ?_⟩
    -- At its position every watcher is wrapped as it is.
    simp only [wrapped, List.get_eq_getElem, List.getElem_mapIdx]
    exact shows _ _
  last := rfl

/-- A supervisor that notes its calls. -/
def announced (supervisor : Supervisor σ R S A K) : Supervisor (List Event × σ) R S A K :=
  supervisor.wrapped Action.announced

/-- Noting the calls changes nothing else. -/
theorem shows_announced (supervisor : Supervisor σ R S A K) :
    supervisor.announced.Shows Prod.snd supervisor :=
  supervisor.shows_wrapped Action.shows_announced

/-- The watchers that note their calls are those of the supervisor, each at its position. -/
theorem exists_of_mem_announced {supervisor : Supervisor σ R S A K}
    {watcher : Watcher (List Event × σ) K S A} (member : watcher ∈ supervisor.announced.watchers) :
    ∃ position, ∃ plain ∈ supervisor.watchers, watcher = fun isSolved round =>
      Action.announced (.watch position round.iteration isSolved) (plain isSolved round) := by
  obtain ⟨position, within, same⟩ := List.mem_mapIdx.1 member
  exact ⟨position, _, List.getElem_mem within, same.symm⟩

variable [HasStatus R S] [HasObjective R K] [Status S] [Answer A] [Scalar K]

/-- The calls of a run within some turns, in the order in which they are made. -/
def invocations (supervisor : Supervisor σ R S A K) (clock : Clock κ K) (turns : Nat) (moment : κ)
    (state : σ) : List Event :=
  ((supervisor.announced.solve clock turns).run (moment, [], state)).state.2.1

/-- A run that notes its calls ends as the run does. -/
theorem announced_result (supervisor : Supervisor σ R S A K) (clock : Clock κ K) (turns : Nat)
    (moment : κ) (state : σ) :
    ((supervisor.announced.solve clock turns).run (moment, [], state)).result =
      ((supervisor.solve clock turns).run (moment, state)).result :=
  (supervisor.shows_announced.solve clock turns).result_eq (moment, [], state)

end Supervisor

end CuttingPlanes
