import CuttingPlanes.Action
import CuttingPlanes.Rotation

/-! Computations that do, seen through a view of their state, what others do on the viewed part. -/

namespace CuttingPlanes

variable {σ τ υ α β γ δ : Type}

/-- Outcomes that look alike through a view; their failures and reports are the same. -/
inductive Outcome.Shows (view : τ → σ) (alike : α → β → Prop) :
    Outcome τ α → Outcome σ β → Prop
  | value {shown : α} {value : β} {state : τ} {log : List LogEntry} (same : alike shown value) :
      Shows view alike ⟨.ok shown, state, log⟩ ⟨.ok value, view state, log⟩
  | failure {cause : Interrupt} {state : τ} {log : List LogEntry} :
      Shows view alike ⟨.error cause, state, log⟩ ⟨.error cause, view state, log⟩

namespace Action

/-- A computation shows another one when their outcomes look alike from any state on. -/
def Shows (view : τ → σ) (alike : α → β → Prop) (shown : Action τ α) (action : Action σ β) : Prop :=
  ∀ state, Outcome.Shows view alike (shown.run state) (action.run (view state))

variable {view : τ → σ} {alike : α → β → Prop} {other : γ → δ → Prop} {shown : Action τ α}
  {action : Action σ β}

theorem shows_pure {left : α} {right : β} (same : alike left right) :
    Shows view alike (pure left) (pure right) :=
  fun _ => .value same

/-- What shows in two steps shows. -/
theorem Shows.bind (first : Shows view alike shown action) {later : α → Action τ γ}
    {next : β → Action σ δ}
    (second : ∀ left right, alike left right → Shows view other (later left) (next right)) :
    Shows view other (shown >>= later) (action >>= next) := by
  intro state
  have begun := first state
  rw [run_bind, run_bind]
  -- Either both first steps have failed, or the second ones start on values that are alike.
  generalize shown.run state = left, action.run (view state) = right at begun ⊢
  cases begun with
  | failure => exact .failure
  | @value left right after log same =>
    have ended := second left right same after
    dsimp only
    generalize (later left).run after = left, (next right).run (view after) = right at ended ⊢
    cases ended with
    | value alike => exact .value alike
    | failure => exact .failure

/-- After steps with the same value the rest has to show for that value alone. -/
theorem Shows.andThen {shown : Action τ α} {action : Action σ α}
    (first : Shows view Eq shown action) {later : α → Action τ γ} {next : α → Action σ δ}
    (second : ∀ value, Shows view other (later value) (next value)) :
    Shows view other (shown >>= later) (action >>= next) := by
  refine first.bind fun left right same => ?_
  -- Both second steps start on the same value.
  subst same
  exact second left

/-- What is made of the state shows, if it is made alike of the viewed state. -/
theorem shows_get {later : τ → Action τ γ} {next : σ → Action σ δ}
    (second : ∀ state, Shows view other (later state) (next (view state))) :
    Shows view other (get >>= later) (get >>= next) :=
  fun state => second state state

/-- A change shows when it does to the viewed state what is done there. -/
theorem shows_modify {change : τ → τ} {seen : σ → σ}
    (same : ∀ state, view (change state) = seen (view state)) :
    Shows view Eq (modify change) (modify seen) := by
  intro state
  -- Seen through the view, the changed state is the changed view.
  rw [run_modify, run_modify, ← same]
  exact .value rfl

/-- A change that the view does not see shows as nothing. -/
theorem shows_unseen {change : τ → τ} (unseen : ∀ state, view (change state) = view state) :
    Shows view Eq (modify change) (pure () : Action σ Unit) := by
  intro state
  rw [run_modify, run_pure, ← unseen]
  exact .value rfl

theorem shows_raise (fault : Fault) :
    Shows view alike (raise fault) (raise fault) :=
  fun _ => .failure

theorem shows_unfinished : Shows view alike unfinished unfinished := fun _ => .failure

theorem shows_report (entry : LogEntry) : Shows view Eq (report entry) (report entry) :=
  fun _ => .value rfl

theorem shows_ofExcept (made : Except Fault α) :
    Shows view Eq (ofExcept made) (ofExcept made) := by
  cases made with
  | ok value => exact shows_pure rfl
  | error fault => exact shows_raise fault

/-- A computation shows itself where everything is in view. -/
theorem shows_id (action : Action σ α) : Shows id Eq action action := by
  intro state
  -- Both outcomes are one, whether it is a value or a failure.
  show Outcome.Shows id Eq (action.run state) (action.run state)
  generalize action.run state = outcome
  rcases outcome with ⟨_ | _, _, _⟩
  · exact .failure
  · exact .value rfl

/-- The second part of a state shows what the whole of it does. -/
theorem shows_snd (action : Action σ α) :
    Shows (Prod.snd : τ × σ → σ) Eq action.onSecond action := by
  intro state
  -- The first part is not touched, and the view forgets it anyway.
  rw [run_onSecond]
  cases action.run state.2 with
  | mk result after log =>
    cases result with
    | ok value => exact .value rfl
    | error cause => exact .failure

/-- A part that shows through a view shows through the view of that part. -/
theorem Shows.onSecond (shows : Shows view alike shown action) :
    Shows (Prod.map (id : υ → υ) view) alike shown.onSecond action.onSecond := by
  intro state
  -- The view of the pair looks at the second part only.
  have part := shows state.2
  rw [run_onSecond, run_onSecond, Prod.map_snd, Prod.map_fst, id]
  generalize shown.run state.2 = left, action.run (view state.2) = right at part ⊢
  cases part with
  | value same => exact .value same
  | failure => exact .failure

/-- A part that a view leaves alone shows itself. -/
theorem shows_onFirst (action : Action υ α) :
    Shows (Prod.map id view) Eq action.onFirst action.onFirst := by
  intro state
  -- On the first part both do the same thing.
  rw [run_onFirst, run_onFirst, Prod.map_snd, Prod.map_fst, id]
  cases action.run state.1 with
  | mk result after log =>
    cases result with
    | ok value => exact .value rfl
    | error cause => exact .failure

/-- A computation that shows another one has its results and reports, and its state in view. -/
theorem Shows.run_eq {shown : Action τ α} {action : Action σ α}
    (shows : Shows view Eq shown action) (state : τ) :
    action.run (view state) =
      ⟨(shown.run state).result, view (shown.run state).state, (shown.run state).log⟩ := by
  -- Alike means equal here, and then nothing is left to differ.
  have all := shows state
  generalize shown.run state = left, action.run (view state) = right at all ⊢
  cases all with
  | value same => rw [same]
  | failure => rfl

/-- A computation that shows another one ends with the same value or cause. -/
theorem Shows.result_eq {shown : Action τ α} {action : Action σ α}
    (shows : Shows view Eq shown action) (state : τ) :
    (shown.run state).result = (action.run (view state)).result := by
  rw [shows.run_eq state]

end Action

namespace Source

variable {view : τ → σ} {shown : Source τ γ} {source : Source σ γ}

/-- A source shows another one when it produces the same members. -/
def Shows (view : τ → σ) (shown : Source τ γ) (source : Source σ γ) : Prop :=
  ∀ position, Action.Shows view Eq (shown.next position) (source.next position)

theorem shows_ofList (items : List γ) : Shows view (ofList items) (ofList items) :=
  fun _ => Action.shows_pure rfl

theorem Shows.onSecond (shows : Shows view shown source) :
    Shows (Prod.map (id : υ → υ) view) shown.onSecond source.onSecond :=
  fun position => (shows position).onSecond

/-- What is collected from a source shows member by member. -/
theorem Shows.collectFrom (shows : Shows view shown source) (fuel position : Nat) :
    Action.Shows view Eq (shown.collectFrom fuel position) (source.collectFrom fuel position) := by
  induction fuel generalizing position with
  | zero => exact Action.shows_unfinished
  | succ fuel ih =>
    -- Both ask for the member at the position, and both are told of it or of the end.
    refine (shows position).andThen fun member => ?_
    cases member with
    | none => exact Action.shows_pure rfl
    | some member => exact (ih (position + 1)).andThen fun rest => Action.shows_pure rfl

end Source

/-- Reordering by draws shows as long as the source does. -/
theorem Rotation.shows_reorder {ρ : Type} {view : τ → σ} (draw : Random.Draw ρ) (fuel : Nat)
    {shown : Source (Rotation ρ × τ) γ} {source : Source (Rotation ρ × σ) γ}
    (shows : shown.Shows (Prod.map id view) source) :
    Action.Shows (Prod.map id view) (Source.Shows (Prod.map id view)) (reorder draw fuel shown)
      (reorder draw fuel source) := by
  -- All members are collected first, and then turned by the same offset.
  refine (shows.collectFrom fuel 0).andThen fun items => ?_
  exact (Action.shows_onFirst (apply draw items)).andThen fun turned =>
    Action.shows_pure (Source.shows_ofList turned)

end CuttingPlanes
