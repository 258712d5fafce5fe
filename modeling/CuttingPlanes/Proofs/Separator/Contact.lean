import CuttingPlanes.Proofs.Separator.Encounter

/-! What a separator calls in a call of its own, each with how it has ended. -/

namespace CuttingPlanes

variable {σ τ γ μ α β : Type}

/-- What a separator calls. -/
inductive Callee (γ : Type) where
  /-- The candidates are asked for, in the order in which they are looked at. -/
  | listing
  /-- The next one of them is asked for. -/
  | member
  | measure (candidate : γ)
  | comparison
  | commit (candidate : γ)

namespace Callee

/-- Whether a measure is asked for. -/
def isMeasure : Callee γ → Bool
  | measure _ => true
  | _ => false

/-- Whether a candidate is committed. -/
def isCommit : Callee γ → Bool
  | commit _ => true
  | _ => false

end Callee

/-- The cause for which a computation has failed, if it has. -/
def Interrupt.of? (result : Except Interrupt α) : Option Interrupt :=
  match result with
  | .ok _ => none
  | .error cause => some cause

/-- A call that has been made, with the cause for which it has failed, if it has. -/
structure Contact (γ : Type) where
  callee : Callee γ
  failure : Option Interrupt

namespace Contact

/-- The number of measures that were asked for, also of those that were refused. -/
def measures (contacts : List (Contact γ)) : Nat :=
  contacts.countP fun contact => contact.callee.isMeasure

/-- The number of commits that were tried. -/
def attempts (contacts : List (Contact γ)) : Nat :=
  contacts.countP fun contact => contact.callee.isCommit

/-- The number of commits that did not fail. -/
def commits (contacts : List (Contact γ)) : Nat :=
  contacts.countP fun contact => contact.callee.isCommit && contact.failure.isNone

/-- No call has failed. -/
def Unbroken (contacts : List (Contact γ)) : Prop := ∀ contact ∈ contacts, contact.failure = none

/--
How a computation ends that has made some calls.

It gives a value only if none of them has failed. Behind the first one that fails there is no other
one, and its cause is that of the computation, which may also run out of turns between two calls.
-/
inductive Closes : List (Contact γ) → Except Interrupt α → Prop
  | value {contacts : List (Contact γ)} (unbroken : Unbroken contacts) (value : α) :
      Closes contacts (.ok value)
  | failure {before : List (Contact γ)} (unbroken : Unbroken before) (callee : Callee γ)
      (cause : Interrupt) : Closes (before ++ [⟨callee, some cause⟩]) (.error cause)
  | spent {contacts : List (Contact γ)} (unbroken : Unbroken contacts) :
      Closes contacts (.error .unfinished)

variable {contacts later : List (Contact γ)} {result : Except Interrupt α}

theorem unbroken_nil : Unbroken ([] : List (Contact γ)) := List.forall_mem_nil _

theorem Unbroken.append (unbroken : Unbroken contacts) (others : Unbroken later) :
    Unbroken (contacts ++ later) := by
  intro contact member
  rcases List.mem_append.1 member with before | behind
  · exact unbroken contact before
  · exact others contact behind

/-- Calls none of which has failed stand in front of any others. -/
theorem Closes.append (unbroken : Unbroken contacts) (closes : Closes later result) :
    Closes (contacts ++ later) result := by
  cases closes with
  | value others value => exact .value (unbroken.append others) value
  | failure others callee cause =>
    rw [← List.append_assoc]
    exact .failure (unbroken.append others) callee cause
  | spent others => exact .spent (unbroken.append others)

/-- A value is only given behind calls none of which has failed. -/
theorem Closes.unbroken {value : α} (closes : Closes contacts (.ok value)) : Unbroken contacts := by
  cases closes with
  | value unbroken => exact unbroken

/-- What fails does so in the same way whatever the value would have been. -/
theorem Closes.of_error {cause : Interrupt}
    (closes : Closes contacts (.error cause : Except Interrupt α)) :
    Closes contacts (.error cause : Except Interrupt β) := by
  cases closes with
  | failure unbroken callee => exact .failure unbroken callee cause
  | spent unbroken => exact .spent unbroken

/-- One call closes as it ends. -/
theorem closes_singleton (callee : Callee γ) (result : Except Interrupt α) :
    Closes [⟨callee, Interrupt.of? result⟩] result := by
  cases result with
  | error cause => exact .failure unbroken_nil callee cause
  | ok value => exact .value (fun _ member => by rw [List.mem_singleton.1 member]; rfl) value

@[simp] theorem measures_append :
    measures (contacts ++ later) = measures contacts + measures later := List.countP_append

@[simp] theorem attempts_append :
    attempts (contacts ++ later) = attempts contacts + attempts later := List.countP_append

@[simp] theorem commits_append :
    commits (contacts ++ later) = commits contacts + commits later := List.countP_append

/-- Every commit has been tried. -/
theorem commits_le_attempts (contacts : List (Contact γ)) : commits contacts ≤ attempts contacts :=
  List.countP_mono_left fun _ _ both => (Bool.and_eq_true_iff.1 both).1

end Contact

namespace Action

/-- A computation that is noted when it has ended, with the cause if it has failed. -/
def audited (callee : Callee γ) (action : Action σ α) : Action (List (Contact γ) × σ) α :=
  fun state =>
    let outcome := action state.2
    ⟨outcome.result, (state.1 ++ [⟨callee, Interrupt.of? outcome.result⟩], outcome.state),
      outcome.log⟩

@[simp] theorem run_audited (callee : Callee γ) (action : Action σ α)
    (contacts : List (Contact γ)) (state : σ) :
    (action.audited callee).run (contacts, state) =
      ⟨(action.run state).result, (contacts ++ [⟨callee, Interrupt.of? (action.run state).result⟩],
        (action.run state).state), (action.run state).log⟩ := rfl

@[simp] theorem ends_audited (callee : Callee γ) (action : Action σ α)
    (contacts : List (Contact γ)) (state : σ) :
    (action.audited callee).ends (contacts, state) =
      ((action.ends state).1, contacts ++ [⟨callee, Interrupt.of? (action.ends state).1⟩],
        (action.ends state).2) := rfl

variable {view : τ → σ} {alike : α → β → Prop}

/-- Computations that show one another are noted alike. -/
theorem Shows.audited {shown : Action τ α} {action : Action σ β} (callee : Callee γ)
    (shows : Shows view alike shown action) :
    Shows (Prod.map id view) alike (shown.audited callee) (action.audited callee) := by
  rintro ⟨contacts, state⟩
  have part := shows state
  -- Both end well or fail for one cause, so that the same is noted of both.
  show Outcome.Shows _ _ _ ((action.audited callee).run (contacts, view state))
  rw [run_audited, run_audited]
  generalize shown.run state = left, action.run (view state) = right at part ⊢
  cases part with
  | value same => exact .value same
  | failure => exact .failure

/-- What is noted of a computation is out of view. -/
theorem shows_audited (callee : Callee γ) (action : Action σ α) :
    Shows Prod.snd Eq (action.audited callee) action := by
  rintro ⟨contacts, state⟩
  show Outcome.Shows _ _ _ (action.run state)
  rw [run_audited]
  rcases action.run state with ⟨_ | _, _, _⟩
  · exact .failure
  · exact .value rfl

end Action

/-- A source that notes each time that it is asked. -/
def Source.audited (source : Source σ γ) : Source (List (Contact γ) × σ) γ :=
  ⟨fun position => (source.next position).audited .member⟩

namespace Separator

/-- A separator that notes everything that it calls. -/
def audited (separator : Separator σ γ μ) : Separator (List (Contact γ) × σ) γ μ where
  policy := separator.policy
  family :=
    { enumerate := Source.audited <$> separator.family.enumerate.audited .listing
      measure := fun candidate => (separator.family.measure candidate).audited (.measure candidate)
      commit := fun candidate => (separator.family.commit candidate).audited (.commit candidate)
      describe := separator.family.describe }
  search :=
    match separator.search with
    | .deepest exceeds => .deepest fun best measure => (exceeds best measure).audited .comparison
    | .first => .first

/-- Noting what is called changes nothing else. -/
theorem shows_audited (separator : Separator σ γ μ) :
    separator.audited.Shows Prod.snd separator where
  policy := rfl
  family :=
    { enumerate := by
        rw [← bind_pure separator.family.enumerate]
        refine (Action.shows_audited _ separator.family.enumerate).bind fun left right same => ?_
        subst same
        exact Action.shows_pure fun position => Action.shows_audited _ _
      measure := fun candidate => Action.shows_audited _ _
      commit := fun candidate => Action.shows_audited _ _
      describe := rfl }
  search := by
    show Search.Shows Prod.snd separator.audited.search separator.search
    unfold audited
    -- Only one of the two searches compares anything.
    cases separator.search with
    | deepest exceeds => exact .deepest fun best measure => Action.shows_audited _ _
    | first => exact .first

/-- Separators that show one another make the same calls. -/
theorem Shows.audited {view : τ → σ} {shown : Separator τ γ μ} {separator : Separator σ γ μ}
    (shows : shown.Shows view separator) :
    shown.audited.Shows (Prod.map id view) separator.audited where
  policy := shows.policy
  family :=
    { enumerate := (shows.family.enumerate.audited _).bind fun left right same =>
        Action.shows_pure fun position => (same position).audited _
      measure := fun candidate => (shows.family.measure candidate).audited _
      commit := fun candidate => (shows.family.commit candidate).audited _
      describe := shows.family.describe }
  search := by
    have looks := shows.search
    unfold Separator.audited
    generalize shown.search = searched, separator.search = search at looks ⊢
    cases looks with
    | deepest compares => exact .deepest fun best measure => (compares best measure).audited _
    | first => exact .first

end Separator

end CuttingPlanes
