import CuttingPlanes.Proofs.Loop.View
import CuttingPlanes.Proofs.Separator.Sweep
import CuttingPlanes.Proofs.Separator.View

/-! What a separator measures and adds, kept beside its state. -/

namespace CuttingPlanes

variable {σ τ γ μ : Type}

/-- What is met by a computation is met by what shows it, as far as it is in view. -/
theorem Action.Shows.meets_iff {α : Type} {view : τ → σ} {shown : Action τ α} {action : Action σ α}
    (shows : Action.Shows view Eq shown action) (state : τ) {given : α → σ → Prop}
    {failed : Interrupt → σ → Prop} :
    action.Meets (view state) given failed ↔
      shown.Meets state (fun value after => given value (view after))
        fun cause after => failed cause (view after) := by
  unfold Action.Meets
  rw [shows.run_eq state]

namespace Action

/-- A computation that leaves alone what is kept between the two parts of its state. -/
def past {υ α : Type} (action : Action (τ × σ) α) : Action (τ × υ × σ) α := fun state =>
  let outcome := action (state.1, state.2.2)
  ⟨outcome.result, (outcome.state.1, state.2.1, outcome.state.2), outcome.log⟩

@[simp] theorem run_past {υ α : Type} (action : Action (τ × σ) α) (first : τ) (between : υ)
    (state : σ) :
    action.past.run (first, between, state) =
      ⟨(action.run (first, state)).result, ((action.run (first, state)).state.1, between,
        (action.run (first, state)).state.2), (action.run (first, state)).log⟩ := rfl

@[simp] theorem meets_past {υ α : Type} {action : Action (τ × σ) α} {first : τ} {between : υ}
    {state : σ} {given : α → τ × υ × σ → Prop} {failed : Interrupt → τ × υ × σ → Prop} :
    action.past.Meets (first, between, state) given failed ↔
      action.Meets (first, state) (fun value after => given value (after.1, between, after.2))
        fun cause after => failed cause (after.1, between, after.2) := Iff.rfl

@[simp] theorem ends_past {υ α : Type} (action : Action (τ × σ) α) (first : τ) (between : υ)
    (state : σ) :
    action.past.ends (first, between, state) =
      ((action.ends (first, state)).1, (action.ends (first, state)).2.1, between,
        (action.ends (first, state)).2.2) := rfl

/-- What is kept in between is out of view. -/
theorem shows_past {υ α : Type} (action : Action (τ × σ) α) :
    Shows (Prod.map id (Prod.snd : υ × σ → σ)) Eq action.past action := by
  rintro ⟨first, between, state⟩
  show Outcome.Shows _ Eq _ (action.run (first, state))
  -- The outcome is the same but for what is in between.
  rw [run_past]
  rcases action.run (first, state) with ⟨_ | _, ⟨_, _⟩, _⟩
  · exact .failure
  · exact .value rfl

end Action

/-- What happens along a run that separates. -/
inductive Happening (γ μ : Type) where
  /-- A solve is about to be made. -/
  | solved
  /-- A candidate has been given a measure. -/
  | measured (candidate : γ) (measure : μ)
  /-- A candidate is about to be added. -/
  | added (candidate : γ)

namespace Happening

/-- Notes what happens; the latest comes first. -/
def note (happening : Happening γ μ) : Action (List (Happening γ μ) × σ) Unit :=
  Action.modify fun state => (happening :: state.1, state.2)

/-- What is noted first is out of view. -/
theorem shows_note {α β : Type} {alike : α → β → Prop}
    {shown : Action (List (Happening γ μ) × σ) α} {action : Action σ β}
    (shows : Action.Shows Prod.snd alike shown action) (happening : Happening γ μ) :
    Action.Shows Prod.snd alike (note happening >>= fun _ => shown) action :=
  fun state => shows (happening :: state.1, state.2)

/-- The candidate that is added, where one is. -/
def addition? : Happening γ μ → Option γ
  | added candidate => some candidate
  | _ => none

/-- Whether a solve is made. -/
def isSolve : Happening γ μ → Bool
  | solved => true
  | _ => false

/-- The candidates that were added, the latest first. -/
def additions (history : List (Happening γ μ)) : List γ := history.filterMap addition?

/-- The number of solves that were made. -/
def solves (history : List (Happening γ μ)) : Nat := history.countP isSolve

variable (history : List (Happening γ μ)) (candidate : γ) (measure : μ)

@[simp] theorem additions_solved : additions (solved :: history) = additions history := rfl

@[simp] theorem additions_measured :
    additions (measured candidate measure :: history) = additions history := rfl

@[simp] theorem additions_added :
    additions (added candidate :: history) = candidate :: additions history := rfl

@[simp] theorem solves_solved : solves (solved :: history) = solves history + 1 :=
  List.countP_cons_of_pos rfl

@[simp] theorem solves_measured :
    solves (measured candidate measure :: history) = solves history :=
  List.countP_cons_of_neg Bool.false_ne_true

@[simp] theorem solves_added : solves (added candidate :: history) = solves history :=
  List.countP_cons_of_neg Bool.false_ne_true

end Happening

namespace Separator

/-- A separator that notes what it measures and adds. -/
def noted (separator : Separator σ γ μ) : Separator (List (Happening γ μ) × σ) γ μ :=
  { separator.onSecond with
    family :=
      { separator.family.onSecond with
        measure := fun candidate => do
          let measure ← (separator.family.measure candidate).onSecond
          Happening.note (.measured candidate measure)
          return measure
        commit := fun candidate => do
          Happening.note (.added candidate)
          (separator.family.commit candidate).onSecond } }

/-- Noting what is measured and added changes nothing else. -/
theorem shows_noted (separator : Separator σ γ μ) : separator.noted.Shows Prod.snd separator where
  policy := rfl
  family :=
    { separator.shows_snd.family with
      measure := fun candidate => by
        rw [← bind_pure (separator.family.measure candidate)]
        exact (Action.shows_snd _).andThen fun measure =>
          Happening.shows_note (Action.shows_pure rfl) _
      commit := fun candidate => Happening.shows_note (Action.shows_snd _) _ }
  -- Nothing is noted of comparisons.
  search := separator.shows_snd.search

section Meets

variable {separator : Separator σ γ μ} {history : List (Happening γ μ)} {state : σ}

@[simp] theorem meets_noted_enumerate {given : Source (List (Happening γ μ) × σ) γ → _ → Prop}
    {failed : Interrupt → List (Happening γ μ) × σ → Prop} :
    Action.Meets separator.noted.family.enumerate (history, state) given failed ↔
      Action.Meets separator.family.enumerate state
        (fun source after => given source.onSecond (history, after))
        fun cause after => failed cause (history, after) := by
  simp [noted, Family.onSecond]

@[simp] theorem meets_noted_measure {candidate : γ}
    {given : μ → List (Happening γ μ) × σ → Prop}
    {failed : Interrupt → List (Happening γ μ) × σ → Prop} :
    Action.Meets (separator.noted.family.measure candidate) (history, state) given failed ↔
      Action.Meets (separator.family.measure candidate) state
        (fun measure after => given measure (.measured candidate measure :: history, after))
        fun cause after => failed cause (history, after) := by
  simp [noted, Happening.note]

@[simp] theorem meets_noted_commit {candidate : γ}
    {given : Unit → List (Happening γ μ) × σ → Prop}
    {failed : Interrupt → List (Happening γ μ) × σ → Prop} :
    Action.Meets (separator.noted.family.commit candidate) (history, state) given failed ↔
      Action.Meets (separator.family.commit candidate) state
        (fun value after => given value (.added candidate :: history, after))
        fun cause after => failed cause (.added candidate :: history, after) := by
  simp [noted, Happening.note]

/-- A comparison that leaves the history alone is one that is made beside it. -/
theorem exists_of_noted_search {exceeds : μ → μ → Action (List (Happening γ μ) × σ) Bool}
    (search : separator.noted.search = .deepest exceeds) :
    ∃ plain, separator.search = .deepest plain ∧ ∀ (best : Option (γ × μ)) measure,
      replaces exceeds best measure = (replaces plain best measure).onSecond := by
  -- The search of what notes is that of the separator, on the second part of the state.
  change separator.onSecond.search = _ at search
  unfold onSecond at search
  cases plain : separator.search with
  | first => simp [plain] at search
  | deepest plain' =>
    simp only [plain, Search.deepest.injEq] at search
    refine ⟨plain', rfl, fun best measure => ?_⟩
    -- Without a best measure nothing is compared on either side.
    cases best with
    | none => rfl
    | some best => rw [← search]; rfl

theorem noted_search_eq_first (first : separator.noted.search = .first) :
    separator.search = .first := by
  change separator.onSecond.search = _ at first
  unfold onSecond at first
  cases plain : separator.search with
  | first => rfl
  | deepest exceeds => simp [plain] at first

end Meets

/-- A call meets what the noted one meets, the history apart. -/
theorem meets_call [Measure μ] {separator : Separator σ γ μ} {fuel : Nat} {tally : Tally}
    {state : σ} (history : List (Happening γ μ)) {given : Bool → Tally × σ → Prop}
    {failed : Interrupt → Tally × σ → Prop} :
    Action.Meets (separator.call fuel) (tally, state) given failed ↔
      Action.Meets (separator.noted.call fuel) (tally, history, state)
        (fun added after => given added (after.1, after.2.2))
        fun cause after => failed cause (after.1, after.2.2) :=
  (separator.shows_noted.call fuel).meets_iff (tally, history, state)

@[simp] theorem regards_noted [Measure μ] (separator : Separator σ γ μ) (measure : μ) :
    separator.noted.search.regards measure = separator.search.regards measure := by
  show separator.onSecond.search.regards measure = _
  -- What is regarded depends on the kind of search alone.
  unfold onSecond
  cases separator.search <;> rfl

variable {R S : Type} [Measure μ]

/-- The loop that solves and calls a separator in turn. -/
def task (separator : Separator σ γ μ) (fuel : Nat) (solve : Action (Tally × σ) R) (optimal : S) :
    Task (Tally × σ) R S Bool :=
  ⟨solve, separator.call fuel, optimal⟩

/-- The loop that notes its solves, and what its separator measures and adds. -/
def notedTask (separator : Separator σ γ μ) (fuel : Nat) (solve : Action (Tally × σ) R)
    (optimal : S) : Task (Tally × List (Happening γ μ) × σ) R S Bool where
  solve := do
    (Happening.note .solved).onSecond
    solve.past
  separate := separator.noted.call fuel
  optimal := optimal

theorem shows_notedTask (separator : Separator σ γ μ) (fuel : Nat)
    (solve : Action (Tally × σ) R) (optimal : S) :
    (separator.notedTask fuel solve optimal).Shows (Prod.map id Prod.snd)
      (separator.task fuel solve optimal) where
  -- The note is out of view, and what follows it is the solve.
  solve := by
    rintro ⟨tally, history, state⟩
    exact Action.shows_past solve (tally, (.solved : Happening γ μ) :: history, state)
  separate := separator.shows_noted.call fuel
  optimal := rfl

end Separator

end CuttingPlanes
