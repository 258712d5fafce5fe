import CuttingPlanes.Proofs.Action

/-! What a computation leaves behind, both when it ends well and when it fails. -/

namespace CuttingPlanes

variable {σ τ α β : Type}

/-- Two steps give a value when the second one gives it from a value of the first one. -/
theorem bind_eq_ok {made : Except Fault α} {next : α → Except Fault β} {value : β} :
    made >>= next = .ok value ↔ ∃ given, made = .ok given ∧ next given = .ok value := by
  cases made with
  | error fault => exact ⟨nofun, fun ⟨_, impossible, _⟩ => nomatch impossible⟩
  | ok given => simp [bind, Except.bind]

/-- A value is as wanted, or it is refused for a cause that is allowed. -/
def Granted (made : Except Fault α) (wanted : α → Prop) (refusable : Fault → Prop) : Prop :=
  match made with
  | .ok value => wanted value
  | .error fault => refusable fault

/-- Everything is granted where anything may be refused. -/
theorem granted_trivial (made : Except Fault α) :
    Granted made (fun _ => True) fun _ => True := by
  unfold Granted
  split <;> trivial

/-- What is made of a granted value is granted where that is. -/
theorem Granted.bind {made : Except Fault α} {wanted : α → Prop} {refusable : Fault → Prop}
    (granted : Granted made wanted refusable) {next : α → Except Fault β} {aim : β → Prop}
    (later : ∀ value, wanted value → Granted (next value) aim refusable) :
    Granted (made >>= next) aim refusable := by
  cases made with
  | ok value => exact later value granted
  | error fault => exact granted

namespace Action

/-- A computation started in a state leaves a value and a state, or a cause and a state. -/
def Meets (action : Action σ α) (state : σ) (given : α → σ → Prop)
    (failed : Interrupt → σ → Prop) : Prop :=
  match (action.run state).result with
  | .ok value => given value (action.run state).state
  | .error cause => failed cause (action.run state).state

/-- A promise says nothing of the states in which a computation fails. -/
theorem ensures_iff_meets {action : Action σ α} {state : σ} {allowed : Interrupt → Prop}
    {promised : α → σ → Prop} :
    Ensures action state allowed promised ↔
      Meets action state promised fun cause _ => allowed cause := Iff.rfl

/-- A computation ends well or fails, and what it leaves is as met. -/
theorem meets_iff {action : Action σ α} {state : σ} {given : α → σ → Prop}
    {failed : Interrupt → σ → Prop} :
    Meets action state given failed ↔
      (∃ value, (action.run state).result = .ok value ∧ given value (action.run state).state) ∨
        ∃ cause, (action.run state).result = .error cause ∧
          failed cause (action.run state).state := by
  unfold Meets
  cases (action.run state).result with
  | ok value => simp
  | error cause => simp

/-- What holds of every end is met. -/
theorem meets_of_forall {action : Action σ α} {state : σ} {given : α → σ → Prop}
    {failed : Interrupt → σ → Prop} (follows : ∀ value after, given value after)
    (fails : ∀ cause after, failed cause after) : Meets action state given failed := by
  unfold Meets
  split
  · exact follows _ _
  · exact fails _ _

/-- A computation leaves what its run leaves. -/
theorem meets_run (action : Action σ α) (state : σ) :
    Meets action state (fun value after => ∃ log, action.run state = ⟨.ok value, after, log⟩)
      fun cause after => ∃ log, action.run state = ⟨.error cause, after, log⟩ := by
  unfold Meets
  rcases action.run state with ⟨cause | value, after, log⟩
  · exact ⟨log, rfl⟩
  · exact ⟨log, rfl⟩

/-- What is made of a value that is given is given in its place. -/
theorem run_map_ok {action : Action σ α} {change : α → β} {state after : σ} {value : α}
    {log : List LogEntry} (given : action.run state = ⟨.ok value, after, log⟩) :
    (change <$> action).run state = ⟨.ok (change value), after, log⟩ := by
  rw [← bind_pure_comp, run_bind_ok given]
  simp

/-- A value that is given beside another state leaves that state alone. -/
theorem run_onSecond_ok {action : Action σ α} {first : τ} {state after : σ} {value : α}
    {log : List LogEntry} (given : action.run state = ⟨.ok value, after, log⟩) :
    action.onSecond.run (first, state) = ⟨.ok value, (first, after), log⟩ := by
  rw [run_onSecond, given]

/-- Two runs in two steps are the same if the first steps are and what is given goes on alike. -/
theorem run_bind_eq {first second : Action σ α} {next later : α → Action σ β} {state : σ}
    (same : first.run state = second.run state)
    (goesOn : Meets first state (fun value after => (next value).run after = (later value).run after)
      fun _ _ => True) : (first >>= next).run state = (second >>= later).run state := by
  rw [run_bind, run_bind, ← same]
  unfold Meets at goesOn
  -- A failure of the first steps is all there is to both runs.
  cases given : (first.run state).result with
  | error cause => rfl
  | ok value =>
    simp only [given] at goesOn ⊢
    rw [goesOn]

namespace Meets

variable {action : Action σ α} {state : σ} {given weaker : α → σ → Prop}
  {failed other : Interrupt → σ → Prop}

/-- What follows from what is met is met, for values and for failures. -/
theorem imp (met : Meets action state given failed)
    (follows : ∀ value after, given value after → weaker value after)
    (fails : ∀ cause after, failed cause after → other cause after) :
    Meets action state weaker other := by
  unfold Meets at met ⊢
  -- The run is the same, so that only what is said of its end changes.
  cases ended : (action.run state).result with
  | ok value => exact follows value _ (by simpa [ended] using met)
  | error cause => exact fails cause _ (by simpa [ended] using met)

theorem mono (met : Meets action state given failed)
    (follows : ∀ value after, given value after → weaker value after) :
    Meets action state weaker failed :=
  met.imp follows fun _ _ failure => failure

/-- What is met may add the value that the run has given. -/
theorem outcome (met : Meets action state given failed) :
    Meets action state
      (fun value after => given value after ∧ (action.run state).result = .ok value) failed := by
  unfold Meets at met ⊢
  cases ended : (action.run state).result with
  | ok value => simpa [ended] using met
  | error cause => simpa [ended] using met

/-- A value that is given is met. -/
theorem of_ok (met : Meets action state given failed) {value : α}
    (ended : (action.run state).result = .ok value) : given value (action.run state).state := by
  unfold Meets at met
  rwa [ended] at met

/-- A failure that comes about is met. -/
theorem of_error (met : Meets action state given failed) {cause : Interrupt}
    (ended : (action.run state).result = .error cause) :
    failed cause (action.run state).state := by
  unfold Meets at met
  rwa [ended] at met

end Meets

/-- A promise is met where its failures are accounted for. -/
theorem Ensures.meets {action : Action σ α} {state : σ} {allowed : Interrupt → Prop}
    {promised given : α → σ → Prop} {failed : Interrupt → σ → Prop}
    (kept : Ensures action state allowed promised)
    (follows : ∀ value after, promised value after → given value after)
    (fails : ∀ cause after, allowed cause → failed cause after) :
    Meets action state given failed :=
  (ensures_iff_meets.1 kept).imp follows fails

section Steps

variable {state : σ} {given : α → σ → Prop} {failed : Interrupt → σ → Prop}

@[simp] theorem meets_pure {value : α} :
    Meets (pure value) state given failed ↔ given value state := Iff.rfl

/-- Two steps meet what the first one meets by leaving the second one to meet it. -/
@[simp] theorem meets_bind {first : Action σ β} {next : β → Action σ α} :
    Meets (first >>= next) state given failed ↔
      Meets first state (fun value after => Meets (next value) after given failed) failed := by
  unfold Meets
  rw [run_bind]
  -- A failing first step leaves its own state behind, and a value is handed on in that state.
  cases (first.run state).result with
  | ok value => rfl
  | error cause => rfl

@[simp] theorem meets_map {first : Action σ β} {change : β → α} :
    Meets (change <$> first) state given failed ↔
      Meets first state (fun value after => given (change value) after) failed :=
  meets_bind

@[simp] theorem meets_get {given : σ → σ → Prop} :
    Meets get state given failed ↔ given state state := Iff.rfl

@[simp] theorem meets_modify {change : σ → σ} {given : Unit → σ → Prop} :
    Meets (modify change) state given failed ↔ given () (change state) := Iff.rfl

@[simp] theorem meets_raise {fault : Fault} :
    Meets (raise fault) state given failed ↔ failed (.raised fault) state := Iff.rfl

@[simp] theorem meets_unfinished :
    Meets unfinished state given failed ↔ failed .unfinished state := Iff.rfl

@[simp] theorem meets_report {entry : LogEntry} {given : Unit → σ → Prop} :
    Meets (report entry) state given failed ↔ given () state := Iff.rfl

@[simp] theorem meets_onSecond {action : Action σ α} {pair : τ × σ} {given : α → τ × σ → Prop}
    {failed : Interrupt → τ × σ → Prop} :
    Meets action.onSecond pair given failed ↔
      Meets action pair.2 (fun value after => given value (pair.1, after))
        fun cause after => failed cause (pair.1, after) := Iff.rfl

/-- A value that may have been refused goes on, or its refusal is raised in the same state. -/
theorem meets_ofExcept {made : Except Fault α} {state : σ} {given : α → σ → Prop}
    {failed : Interrupt → σ → Prop} :
    Meets (ofExcept made) state given failed ↔
      match made with
      | .ok value => given value state
      | .error fault => failed (.raised fault) state := by
  cases made <;> rfl

/-- What is granted goes on, and what is refused is raised in the same state. -/
theorem Meets.of_granted {made : Except Fault α} {wanted : α → Prop} {refusable : Fault → Prop}
    (granted : Granted made wanted refusable)
    (goesOn : ∀ value, wanted value → made = .ok value → given value state)
    (fails : ∀ fault, refusable fault → failed (.raised fault) state) :
    Meets (ofExcept made) state given failed := by
  -- A value is given as it is, and a refusal is raised as it is.
  cases made with
  | ok value => exact goesOn value granted rfl
  | error fault => exact fails fault granted

end Steps

/-- The state that computations leave one after another, whether they fail or not. -/
def leave : List (Action σ α) → σ → σ
  | [], state => state
  | action :: rest, state => leave rest (action.run state).state

theorem leave_append (first second : List (Action σ α)) (state : σ) :
    leave (first ++ second) state = leave second (leave first state) := by
  induction first generalizing state with
  | nil => rfl
  | cons action rest ih => exact ih (action.run state).state

/-- How a computation ends: what it gives, and the state that it leaves. -/
def ends (action : Action σ α) (state : σ) : Except Interrupt α × σ :=
  ((action.run state).result, (action.run state).state)

/-- A computation meets how it ends. -/
theorem meets_ends (action : Action σ α) (state : σ) :
    Meets action state (fun value after => action.ends state = (.ok value, after))
      fun cause after => action.ends state = (.error cause, after) := by
  unfold Meets ends
  cases (action.run state).result with
  | ok value => rfl
  | error cause => rfl

/-- What is met of the result and the state alike holds of how a computation ends. -/
theorem Meets.of_ends {action : Action σ α} {state : σ} {ended : Except Interrupt α → σ → Prop}
    (met : Meets action state (fun value after => ended (.ok value) after)
      fun cause after => ended (.error cause) after) :
    ended (action.ends state).1 (action.ends state).2 := by
  unfold Meets at met
  unfold ends
  cases given : (action.run state).result with
  | ok value => simpa [given] using met
  | error cause => simpa [given] using met

/-- A computation ends as is met at each of its ends. -/
theorem ends_eq_of_meets {action : Action σ α} {state : σ} {ended : Except Interrupt α × σ}
    (met : Meets action state (fun value after => (.ok value, after) = ended)
      fun cause after => (.error cause, after) = ended) : action.ends state = ended :=
  @Meets.of_ends _ _ _ _ (fun result after => (result, after) = ended) met

@[simp] theorem ends_pure (value : α) (state : σ) :
    (pure value : Action σ α).ends state = (.ok value, state) := rfl

@[simp] theorem ends_unfinished (state : σ) :
    (unfinished : Action σ α).ends state = (.error .unfinished, state) := rfl

@[simp] theorem ends_raise (fault : Fault) (state : σ) :
    (raise fault : Action σ α).ends state = (.error (.raised fault), state) := rfl

@[simp] theorem ends_modify (change : σ → σ) (state : σ) :
    (modify change).ends state = (.ok (), change state) := rfl

@[simp] theorem ends_report (entry : LogEntry) (state : σ) :
    (report entry).ends state = (.ok (), state) := rfl

@[simp] theorem ends_onSecond (action : Action σ α) (first : τ) (state : σ) :
    action.onSecond.ends (first, state) =
      ((action.ends state).1, first, (action.ends state).2) := rfl

@[simp] theorem ends_onFirst (action : Action τ α) (first : τ) (state : σ) :
    action.onFirst.ends (first, state) =
      ((action.ends first).1, (action.ends first).2, state) := rfl

/-- Two steps end as the second one does, unless the first one fails. -/
theorem ends_bind (first : Action σ α) (next : α → Action σ β) (state : σ) :
    (first >>= next).ends state =
      match first.ends state with
      | (.ok value, after) => (next value).ends after
      | (.error cause, after) => (.error cause, after) := by
  simp only [ends, run_bind]
  cases (first.run state).result <;> rfl

/-- Two steps end well when the second one does where the first one has ended well. -/
theorem ends_bind_eq_ok {first : Action σ α} {next : α → Action σ β} {state after : σ} {value : β} :
    (first >>= next).ends state = (.ok value, after) ↔
      ∃ given before, first.ends state = (.ok given, before) ∧
        (next given).ends before = (.ok value, after) := by
  rw [ends_bind]
  -- A failure of the first step would be the failure of both.
  rcases first.ends state with ⟨cause | given, before⟩
  · exact ⟨nofun, fun ⟨_, _, impossible, _⟩ => nomatch impossible⟩
  · refine ⟨fun ended => ⟨given, before, rfl, ended⟩, ?_⟩
    rintro ⟨_, _, ⟨⟩, ended⟩
    exact ended

/-- What is made of a value is made of the value in the end. -/
theorem ends_map (change : α → β) (action : Action σ α) (state : σ) :
    (change <$> action).ends state = (change <$> (action.ends state).1, (action.ends state).2) := by
  refine (ends_bind action (fun value => pure (change value)) state).trans ?_
  rcases action.ends state with ⟨_ | _, _⟩ <;> rfl

end Action

end CuttingPlanes
