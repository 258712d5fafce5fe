import CuttingPlanes.Fault

/-!
Computations that change a state, report what they do and may fail. A failing computation keeps the
state it has reached and the reports it has made.
-/

namespace CuttingPlanes

/-- How much a report matters. -/
inductive Level where
  | debug
  | info
  deriving DecidableEq, Repr

namespace Level

/-- The name of a level. -/
def name : Level → String
  | debug => "DEBUG"
  | info => "INFO"

/-- The number of a level; greater ones matter more. -/
def number : Level → Nat
  | debug => 10
  | info => 20

end Level

/-- One line reported by a part of the library. -/
structure LogEntry where
  level : Level
  source : String
  message : String
  deriving DecidableEq, Repr

/-- Why a computation ended without a value. -/
inductive Interrupt where
  | raised (fault : Fault)
  /-- The turns granted to a search or a loop were used up. -/
  | unfinished
  deriving DecidableEq, Repr

/-- What a computation leaves behind. -/
structure Outcome (σ α : Type) where
  result : Except Interrupt α
  state : σ
  log : List LogEntry

/-- A computation over a state. -/
def Action (σ α : Type) : Type := σ → Outcome σ α

namespace Action

variable {σ τ α β : Type}

/-- The outcome of a computation started in a state. -/
def run (action : Action σ α) (state : σ) : Outcome σ α := action state

/-- The computation that only gives a value. -/
protected def pure (value : α) : Action σ α := fun state => ⟨.ok value, state, []⟩

/-- One computation after another; the second does not start when the first fails. -/
protected def bind (first : Action σ α) (next : α → Action σ β) : Action σ β := fun state =>
  let before := first state
  match before.result with
  | .error cause => ⟨.error cause, before.state, before.log⟩
  | .ok value =>
      let after := next value before.state
      ⟨after.result, after.state, before.log ++ after.log⟩

instance : Monad (Action σ) where
  pure := Action.pure
  bind := Action.bind

@[ext] theorem ext {left right : Action σ α} (agree : ∀ state, left.run state = right.run state) :
    left = right := funext agree

@[simp] theorem run_pure (value : α) (state : σ) :
    (pure value : Action σ α).run state = ⟨.ok value, state, []⟩ := rfl

theorem run_bind (first : Action σ α) (next : α → Action σ β) (state : σ) :
    (first >>= next).run state =
      match (first.run state).result with
      | .error cause => ⟨.error cause, (first.run state).state, (first.run state).log⟩
      | .ok value =>
          ⟨((next value).run (first.run state).state).result,
            ((next value).run (first.run state).state).state,
            (first.run state).log ++ ((next value).run (first.run state).state).log⟩ := rfl

/-- A computation that gives a value goes on in the state it has left. -/
theorem run_bind_ok {first : Action σ α} {next : α → Action σ β} {state after : σ} {value : α}
    {log : List LogEntry} (given : first.run state = ⟨.ok value, after, log⟩) :
    (first >>= next).run state =
      ⟨((next value).run after).result, ((next value).run after).state,
        log ++ ((next value).run after).log⟩ := by
  -- The first outcome decides the branch, and the rest is how outcomes are joined.
  simp [run_bind, given]

/-- A computation that fails hides what would have come after it. -/
theorem run_bind_error {first : Action σ α} {next : α → Action σ β} {state after : σ}
    {cause : Interrupt} {log : List LogEntry}
    (failed : first.run state = ⟨.error cause, after, log⟩) :
    (first >>= next).run state = ⟨.error cause, after, log⟩ := by
  -- The branch of a failure never mentions the second computation.
  simp [run_bind, failed]

/-- Giving back the value of a computation adds nothing to it. -/
theorem map_id_eq (action : Action σ α) : id <$> action = action := by
  funext state
  -- Mapping is defined as a second computation that only gives back the value.
  show (action >>= fun value => pure (id value)).run state = action.run state
  rw [run_bind]
  cases given : (action.run state).result <;> simp [← given]

/-- Computations in a row may be grouped either way. -/
theorem bind_bind_eq {γ : Type} (action : Action σ α) (next : α → Action σ β)
    (last : β → Action σ γ) :
    action >>= next >>= last = action >>= fun value => next value >>= last := by
  funext state
  show ((action >>= next) >>= last).run state =
    (action >>= fun value => next value >>= last).run state
  simp only [run_bind]
  -- Whoever fails first ends both sides alike; otherwise only the grouping of the logs differs.
  cases (action.run state).result with
  | error cause => rfl
  | ok value =>
      simp only
      cases ((next value).run (action.run state).state).result with
      | error cause => rfl
      | ok other => simp [List.append_assoc]

instance : LawfulMonad (Action σ) :=
  LawfulMonad.mk' _ map_id_eq (fun _ _ => rfl) bind_bind_eq

/-- The current state. -/
def get : Action σ σ := fun state => ⟨.ok state, state, []⟩

/-- A change of the state. -/
def modify (change : σ → σ) : Action σ Unit := fun state => ⟨.ok (), change state, []⟩

/-- A new state. -/
def set (state : σ) : Action σ Unit := modify fun _ => state

/-- A refusal. -/
def raise (fault : Fault) : Action σ α := fun state => ⟨.error (.raised fault), state, []⟩

/-- The end of the granted turns. -/
def unfinished : Action σ α := fun state => ⟨.error .unfinished, state, []⟩

/-- A report. -/
def report (entry : LogEntry) : Action σ Unit := fun state => ⟨.ok (), state, [entry]⟩

/-- A value that may have been refused. -/
def ofExcept : Except Fault α → Action σ α
  | .ok value => pure value
  | .error fault => raise fault

/-- A computation on the second part of a state. -/
def onSecond (action : Action σ α) : Action (τ × σ) α := fun state =>
  let outcome := action state.2
  ⟨outcome.result, (state.1, outcome.state), outcome.log⟩

/-- A computation on the first part of a state. -/
def onFirst (action : Action τ α) : Action (τ × σ) α := fun state =>
  let outcome := action state.1
  ⟨outcome.result, (outcome.state, state.2), outcome.log⟩

/-- A computation on a state of its own, which is given up afterwards. -/
def isolated (action : Action τ α) (own : τ) : Action σ α := fun state =>
  let outcome := action own
  ⟨outcome.result, state, outcome.log⟩

/-- The outcomes of computations one after another; each starts where the one before it ended. -/
def trail : List (Action σ α) → σ → List (Outcome σ α)
  | [], _ => []
  | action :: rest, state =>
      let outcome := action state
      outcome :: trail rest outcome.state

@[simp] theorem run_isolated (action : Action τ α) (own : τ) (state : σ) :
    (isolated action own).run state = ⟨(action.run own).result, state, (action.run own).log⟩ := rfl

@[simp] theorem run_get (state : σ) : (get : Action σ σ).run state = ⟨.ok state, state, []⟩ := rfl

@[simp] theorem run_modify (change : σ → σ) (state : σ) :
    (modify change).run state = ⟨.ok (), change state, []⟩ := rfl

@[simp] theorem run_set (next state : σ) : (set next).run state = ⟨.ok (), next, []⟩ := rfl

@[simp] theorem run_raise (fault : Fault) (state : σ) :
    (raise fault : Action σ α).run state = ⟨.error (.raised fault), state, []⟩ := rfl

@[simp] theorem run_unfinished (state : σ) :
    (unfinished : Action σ α).run state = ⟨.error .unfinished, state, []⟩ := rfl

@[simp] theorem run_report (entry : LogEntry) (state : σ) :
    (report entry).run state = ⟨.ok (), state, [entry]⟩ := rfl

@[simp] theorem run_onSecond (action : Action σ α) (state : τ × σ) :
    (onSecond action).run state =
      ⟨(action.run state.2).result, (state.1, (action.run state.2).state),
        (action.run state.2).log⟩ := rfl

@[simp] theorem run_onFirst (action : Action τ α) (state : τ × σ) :
    (onFirst action).run state =
      ⟨(action.run state.1).result, ((action.run state.1).state, state.2),
        (action.run state.1).log⟩ := rfl

@[simp] theorem ofExcept_ok (value : α) : (ofExcept (.ok value) : Action σ α) = pure value := rfl

@[simp] theorem ofExcept_error (fault : Fault) :
    (ofExcept (.error fault) : Action σ α) = raise fault := rfl

end Action

/-- A value that answers yes or no. -/
class Answer (α : Type) where
  yes : α → Bool

instance : Answer Bool := ⟨id⟩

end CuttingPlanes
