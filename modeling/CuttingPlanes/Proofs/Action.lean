import CuttingPlanes.Action

/-! What a computation promises: a value and a state when it ends well, a cause when it fails. -/

namespace CuttingPlanes.Action

variable {σ τ α β : Type} {allowed : Interrupt → Prop}

/-- A computation started in a state ends as promised, or fails for an allowed cause. -/
def Ensures (action : Action σ α) (state : σ) (allowed : Interrupt → Prop)
    (promised : α → σ → Prop) : Prop :=
  match (action.run state).result with
  | .ok value => promised value (action.run state).state
  | .error cause => allowed cause

/-- Where no cause is allowed, a computation gives a value. -/
theorem ensures_iff_exists {action : Action σ α} {state : σ} {promised : α → σ → Prop} :
    Ensures action state (fun _ => False) promised ↔
      ∃ value, (action.run state).result = .ok value ∧
        promised value (action.run state).state := by
  unfold Ensures
  -- A failure would need a cause that is allowed.
  cases (action.run state).result with
  | ok value => simp
  | error cause => simp

/-- A computation in two steps on a part of a state takes each step on that part. -/
@[simp] theorem onSecond_bind (first : Action σ α) (next : α → Action σ β) :
    (onSecond (first >>= next) : Action (τ × σ) β) =
      first.onSecond >>= fun value => (next value).onSecond := by
  refine Action.ext fun state => ?_
  simp only [run_onSecond, run_bind]
  -- Both sides go on, or fail, as the first step says.
  cases (first.run state.2).result <;> rfl

@[simp] theorem onSecond_pure (value : α) :
    (onSecond (pure value : Action σ α) : Action (τ × σ) α) = pure value := rfl

@[simp] theorem onSecond_map (action : Action σ α) (change : α → β) :
    (onSecond (change <$> action) : Action (τ × σ) β) = change <$> action.onSecond :=
  onSecond_bind action fun value => pure (change value)

/-- Nothing is promised where every cause is allowed. -/
theorem ensures_trivial (action : Action σ α) (state : σ) :
    Ensures action state (fun _ => True) fun _ _ => True := by
  unfold Ensures
  split <;> trivial

namespace Ensures

variable {action : Action σ α} {state : σ} {promised weaker : α → σ → Prop}

/-- A promise that follows from another one is kept with it. -/
theorem mono (kept : Ensures action state allowed promised)
    (follows : ∀ value after, promised value after → weaker value after) :
    Ensures action state allowed weaker := by
  unfold Ensures at kept ⊢
  -- Only values are promised anything, so that failures stay as they are.
  cases given : (action.run state).result with
  | ok value => exact follows value _ (by simpa [given] using kept)
  | error cause => simpa [given] using kept

/-- More causes may be allowed. -/
theorem weaken {other : Interrupt → Prop} (kept : Ensures action state allowed promised)
    (follows : ∀ cause, allowed cause → other cause) : Ensures action state other promised := by
  unfold Ensures at kept ⊢
  cases given : (action.run state).result with
  | ok value => simpa [given] using kept
  | error cause => exact follows cause (by simpa [given] using kept)

/-- A value that is given is as promised. -/
theorem of_ok (kept : Ensures action state allowed promised) {value : α}
    (given : (action.run state).result = .ok value) :
    promised value (action.run state).state := by
  unfold Ensures at kept
  rwa [given] at kept

/-- A promise may add what is known of the outcome itself. -/
theorem outcome (kept : Ensures action state allowed promised) :
    Ensures action state allowed fun value after =>
      promised value after ∧ (action.run state).result = .ok value ∧
        (action.run state).state = after := by
  unfold Ensures at kept ⊢
  -- The value and the state are those of the run itself.
  cases given : (action.run state).result with
  | ok value => simpa [given] using kept
  | error cause => simpa [given] using kept

/-- What is promised wherever there is a value is promised beside anything else. -/
theorem and_of_value {other : α → σ → Prop} (kept : Ensures action state allowed promised)
    (given : Ensures action state (fun _ => True) other) :
    Ensures action state allowed fun value after => promised value after ∧ other value after := by
  unfold Ensures at kept given ⊢
  -- The second promise says nothing of failures, and the first one covers them.
  cases made : (action.run state).result with
  | ok value => exact ⟨by simpa [made] using kept, by simpa [made] using given⟩
  | error cause => simpa [made] using kept

end Ensures

section Steps

variable {state : σ} {promised : α → σ → Prop}

@[simp] theorem ensures_pure {value : α} :
    Ensures (pure value) state allowed promised ↔ promised value state := Iff.rfl

/-- A computation in two steps keeps a promise when the first one promises that the second does. -/
@[simp] theorem ensures_bind {first : Action σ β} {next : β → Action σ α} :
    Ensures (first >>= next) state allowed promised ↔
      Ensures first state allowed fun value after =>
        Ensures (next value) after allowed promised := by
  unfold Ensures
  rw [run_bind]
  -- A failure of the first step is the failure of both, and its value is what the second starts on.
  cases (first.run state).result with
  | ok value => rfl
  | error cause => rfl

@[simp] theorem ensures_map {first : Action σ β} {change : β → α} :
    Ensures (change <$> first) state allowed promised ↔
      Ensures first state allowed fun value after => promised (change value) after :=
  ensures_bind

@[simp] theorem ensures_get {promised : σ → σ → Prop} :
    Ensures get state allowed promised ↔ promised state state := Iff.rfl

@[simp] theorem ensures_modify {change : σ → σ} {promised : Unit → σ → Prop} :
    Ensures (modify change) state allowed promised ↔ promised () (change state) := Iff.rfl

@[simp] theorem ensures_set {next : σ} {promised : Unit → σ → Prop} :
    Ensures (set next) state allowed promised ↔ promised () next := Iff.rfl

@[simp] theorem ensures_raise {fault : Fault} :
    Ensures (raise fault) state allowed promised ↔ allowed (.raised fault) := Iff.rfl

@[simp] theorem ensures_unfinished :
    Ensures unfinished state allowed promised ↔ allowed .unfinished := Iff.rfl

@[simp] theorem ensures_report {entry : LogEntry} {promised : Unit → σ → Prop} :
    Ensures (report entry) state allowed promised ↔ promised () state := Iff.rfl

/-- A value that may have been refused is promised, or its refusal is allowed. -/
theorem ensures_ofExcept {made : Except Fault α} :
    Ensures (ofExcept made) state allowed promised ↔
      match made with
      | .ok value => promised value state
      | .error fault => allowed (.raised fault) := by
  -- A value is given as it is, and a refusal is raised as it is.
  cases made <;> rfl

/-- A computation on the second part of a state promises for that part and keeps the first. -/
@[simp] theorem ensures_onSecond {action : Action σ α} {pair : τ × σ}
    {promised : α → τ × σ → Prop} :
    Ensures action.onSecond pair allowed promised ↔
      Ensures action pair.2 allowed fun value after => promised value (pair.1, after) := Iff.rfl

/-- A computation on the first part of a state promises for that part and keeps the second. -/
@[simp] theorem ensures_onFirst {action : Action τ α} {pair : τ × σ}
    {promised : α → τ × σ → Prop} :
    Ensures action.onFirst pair allowed promised ↔
      Ensures action pair.1 allowed fun value after => promised value (after, pair.2) := Iff.rfl

end Steps

end CuttingPlanes.Action
