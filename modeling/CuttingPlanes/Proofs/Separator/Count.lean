import CuttingPlanes.Proofs.Outcome
import CuttingPlanes.Separator.Basic

/-! What a call of a separator counts, and what its search for a candidate leaves alone. -/

namespace CuttingPlanes

variable {σ τ υ γ μ α β : Type}

namespace Action

/-- A computation that leaves a part of its state as it is, even when it fails. -/
def Leaves (part : σ → υ) (action : Action σ α) : Prop :=
  ∀ state, part (action.run state).state = part state

variable {part : σ → υ}

theorem leaves_pure (value : α) : Leaves part (pure value) := fun _ => rfl

theorem leaves_unfinished : Leaves part (unfinished : Action σ α) := fun _ => rfl

/-- What two steps leave alone is left alone by both of them. -/
theorem Leaves.bind {first : Action σ α} {next : α → Action σ β} (begins : Leaves part first)
    (goesOn : ∀ state value, (first.run state).result = .ok value → Leaves part (next value)) :
    Leaves part (first >>= next) := by
  intro state
  rw [run_bind]
  -- A failing first step is all that is done, and otherwise the second one goes on from there.
  cases given : (first.run state).result with
  | error cause => exact begins state
  | ok value => exact (goesOn state value given _).trans (begins state)

/-- A computation beside another state leaves that state alone as well. -/
theorem Leaves.onSecond {ω : Type} {action : Action σ α} (leaves : Leaves part action)
    {first : τ → ω} : Leaves (Prod.map first part) action.onSecond :=
  fun state => Prod.ext rfl (leaves state.2)

/-- However a computation ends, the part that it leaves alone is the same. -/
theorem Leaves.meets {action : Action σ α} (leaves : Leaves part action) {state : σ}
    {given : α → σ → Prop} {failed : Interrupt → σ → Prop}
    (follows : ∀ value after, part after = part state → given value after)
    (fails : ∀ cause after, part after = part state → failed cause after) :
    Meets action state given failed := by
  unfold Meets
  -- The part is the same behind a value and behind a failure.
  split
  · exact follows _ _ (leaves state)
  · exact fails _ _ (leaves state)

end Action

namespace Separator

variable {separator : Separator σ γ μ} {part : σ → υ}

/-- Looking for a candidate leaves a part of the state alone; committing one need not. -/
structure Looks (separator : Separator σ γ μ) (part : σ → υ) : Prop where
  enumerate : separator.family.enumerate.Leaves part
  produces : ∀ state source, (separator.family.enumerate.run state).result = .ok source →
    ∀ position, (source.next position).Leaves part
  measures : ∀ candidate, (separator.family.measure candidate).Leaves part
  compares : ∀ exceeds, separator.search = .deepest exceeds →
    ∀ best measure, (exceeds best measure).Leaves part

/-- A separator on the second part of a state leaves the first part alone. -/
theorem looks_onSecond (separator : Separator σ γ μ) :
    (separator.onSecond : Separator (τ × σ) γ μ).Looks Prod.fst where
  enumerate := by
    have enumerates : (separator.family.enumerate.onSecond : Action (τ × σ) _).Leaves Prod.fst :=
      fun _ => rfl
    exact enumerates.bind fun _ source _ => Action.leaves_pure source.onSecond
  produces := by
    intro state source given position
    change ((separator.family.enumerate.onSecond >>= fun source => pure source.onSecond).run
      state).result = .ok source at given
    rw [Action.run_bind] at given
    -- Whatever is produced is produced on the second part.
    cases made : (separator.family.enumerate.onSecond.run state).result with
    | error cause =>
      rw [made] at given
      exact nomatch given
    | ok plain =>
      rw [made] at given
      obtain rfl := Except.ok.inj given
      exact fun _ => rfl
  measures _ _ := rfl
  compares := by
    intro exceeds search best measure
    -- Only a search for the deepest candidate compares.
    unfold onSecond at search
    cases plain : separator.search with
    | first => simp [plain] at search
    | deepest compares =>
      simp only [plain, Search.deepest.injEq] at search
      rw [← search]
      exact fun _ => rfl

/-- What is kept of a state beside a tally while a separator looks, the questions apart. -/
def settled (part : σ → υ) : Tally × σ → (Nat × Nat) × υ :=
  Prod.map (fun tally => (tally.calls, tally.rowsAdded)) part

/-- Asking for a measure counts the question and nothing else. -/
theorem Looks.evaluate_leaves (looks : separator.Looks part) (candidate : γ) :
    (separator.evaluate candidate).Leaves (settled part) := by
  have counts : (Tally.count Tally.looked).Leaves (settled part) := fun _ => rfl
  exact counts.bind fun _ _ _ => (looks.measures candidate).onSecond

variable [Measure μ]

theorem Looks.scanFirst_leaves (looks : separator.Looks part) {source : Source σ γ}
    (produces : ∀ position, (source.next position).Leaves part) (fuel position : Nat) :
    (separator.scanFirst source fuel position).Leaves (settled part) := by
  induction fuel generalizing position with
  | zero => exact Action.leaves_unfinished
  | succ fuel ih =>
    refine (produces position).onSecond.bind fun _ found _ => ?_
    cases found with
    | none => exact Action.leaves_pure none
    | some candidate =>
      refine (looks.evaluate_leaves candidate).bind fun _ measure _ => ?_
      -- The scan ends at the candidate or goes on behind it.
      split
      · exact Action.leaves_pure (some candidate)
      · exact ih (position + 1)

theorem Looks.scanDeepest_leaves (looks : separator.Looks part)
    {exceeds : μ → μ → Action σ Bool}
    (compares : ∀ best measure, (exceeds best measure).Leaves part) {source : Source σ γ}
    (produces : ∀ position, (source.next position).Leaves part) (fuel position : Nat)
    (best : Option (γ × μ)) :
    (separator.scanDeepest exceeds source fuel position best).Leaves (settled part) := by
  induction fuel generalizing position best with
  | zero => exact Action.leaves_unfinished
  | succ fuel ih =>
    refine (produces position).onSecond.bind fun _ found _ => ?_
    cases found with
    | none => exact Action.leaves_pure (best.map Prod.fst)
    | some candidate =>
      refine (looks.evaluate_leaves candidate).bind fun _ measure _ => ?_
      have replaces : (replaces exceeds best measure).Leaves part := by
        cases best with
        | none => exact Action.leaves_pure true
        | some held => exact compares held.2 measure
      -- A candidate without a measure is passed over, and another one is compared.
      split
      · refine replaces.onSecond.bind fun _ verdict _ => ?_
        split
        · exact ih (position + 1) (some (candidate, measure))
        · exact ih (position + 1) best
      · exact ih (position + 1) best

/-- Neither the calls nor the rows are counted while a separator looks for a candidate. -/
theorem Looks.select_leaves (looks : separator.Looks part) (fuel : Nat) :
    (separator.select fuel).Leaves (settled part) := by
  refine looks.enumerate.onSecond.bind fun state source given => ?_
  have produces := looks.produces state.2 source given
  -- The two kinds of search differ in whether measures are compared.
  cases search : separator.search with
  | deepest exceeds =>
    exact looks.scanDeepest_leaves (looks.compares exceeds search) produces fuel 0 none
  | first => exact looks.scanFirst_leaves produces fuel 0

/-- Where a call has come to by the time it has looked: it is counted, and no row is. -/
structure Looked (part : σ → υ) (before after : Tally × σ) : Prop where
  calls : after.1.calls = before.1.calls + 1
  rowsAdded : after.1.rowsAdded = before.1.rowsAdded
  part : part after.2 = part before.2

/-- A call is counted before it looks, and the row that it adds behind the commit. -/
theorem Looks.call_meets (looks : separator.Looks part) {fuel : Nat} {begun : Tally × σ}
    {given : Bool → Tally × σ → Prop} {failed : Interrupt → Tally × σ → Prop}
    (rests : ∀ after, Looked part begun after → given false after)
    (commits : ∀ after, Looked part begun after → ∀ candidate,
      (separator.family.commit candidate).Meets after.2
        (fun _ state => given true (after.1.added, state))
        fun cause state => failed cause (after.1, state))
    (fails : ∀ cause after, Looked part begun after → failed cause after) :
    (separator.call fuel).Meets begun given failed := by
  simp only [call, Tally.count, Action.meets_bind, Action.meets_modify]
  have looked (after : Tally × σ)
      (same : settled part after = settled part (begun.1.called, begun.2)) :
      Looked part begun after := by
    obtain ⟨counts, rest⟩ := Prod.mk.inj same
    obtain ⟨calls, rowsAdded⟩ := Prod.mk.inj counts
    exact ⟨calls, rowsAdded, rest⟩
  -- The call has been counted, and whatever the search does leaves that as it is.
  refine (looks.select_leaves fuel).meets (fun found after same => ?_) fun cause after same =>
    fails cause after (looked after same)
  cases found with
  | none => exact rests after (looked after same)
  | some candidate =>
    simp only [Action.meets_bind, Action.meets_report, Action.meets_onSecond, Action.meets_modify,
      Action.meets_pure]
    exact commits after (looked after same) candidate

end Separator

end CuttingPlanes
