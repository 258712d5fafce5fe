import CuttingPlanes.Proofs.Exact
import CuttingPlanes.Proofs.Loop.Course

/-! Times and limits that can be reckoned with, and limits that never stop a run. -/

namespace CuttingPlanes

variable {κ : Type}

namespace Supervisor

/-- The iterations are used up when there is a limit on them that has been reached. -/
theorem iterationsSpent_rat (limits : Limits ℚ) (iteration : Nat) :
    iterationsSpent limits iteration =
      .ok (decide (0 < limits.maxIterations ∧ limits.maxIterations ≤ iteration)) := by
  by_cases limited : 0 < limits.maxIterations <;>
    simp [iterationsSpent, limited, bind, Except.bind, pure, Except.pure]

theorem timeSpent_rat (limits : Limits ℚ) (elapsed : ℚ) :
    timeSpent limits elapsed = .ok (decide (0 < limits.maxTime ∧ limits.maxTime ≤ elapsed)) := by
  by_cases limited : 0 < limits.maxTime <;>
    simp [timeSpent, limited, bind, Except.bind, pure, Except.pure]

/-- A clock that moves on by one at every reading. -/
def ticking : Clock Nat ℚ := fun moment => (moment, moment + 1)

end Supervisor

/-- Values that are numbers can be compared. -/
theorem Datum.order_of_number? (relation : Relation) {left right : Datum} {x y : Extended}
    (first : left.number? = some x) (second : right.number? = some y) :
    left.order relation right = .ok (x.related relation y) := by
  -- Neither text nor a list is a number, and only these are compared in another way.
  cases left <;> cases right <;> simp_all [order, number?]

namespace Limits

/-- Nothing is asked of times and limits where anything may be refused. -/
theorem timed_trivial (R : Type) {K : Type} [HasObjective R K] [Scalar K] (limits : Limits K)
    (clock : Clock κ K) : limits.Timed R clock (fun _ => True) fun _ => True where
  begins := trivial
  shows _ := trivial
  sub _ _ := granted_trivial _
  add _ _ := granted_trivial _
  iterations _ := granted_trivial _
  elapsed _ := granted_trivial _
  limit _ := granted_trivial _
  written _ _ _ _ := granted_trivial _

/-- Nothing is refused of times and limits that are rationals. -/
theorem timed_rat (R : Type) [HasObjective R ℚ] (limits : Limits ℚ) (clock : Clock κ ℚ)
    (refusable : Fault → Prop) : limits.Timed R clock (fun _ => True) refusable where
  begins := trivial
  shows _ := trivial
  sub _ _ := trivial
  add _ _ := trivial
  iterations count := by rw [Supervisor.iterationsSpent_rat]; trivial
  elapsed _ := by rw [Supervisor.timeSpent_rat]; trivial
  limit _ := trivial
  written _ _ _ _ := trivial

/-- A limit that is a number is compared with zero, and with a time only above it. -/
private theorem granted_order {limit value : Datum} {x y : Extended}
    (numbered : limit.number? = some x) (valued : value.number? = some y)
    (refusable : Fault → Prop) :
    Granted (do
      if ← Scalar.order .greater limit (Scalar.ofInt 0) then Scalar.order .atLeast value limit
      else return false) (fun _ => True) refusable := by
  have positive : Scalar.order .greater limit (Scalar.ofInt 0) =
      .ok (x.related .greater (.finite 0)) := Datum.order_of_number? .greater numbered rfl
  have reached : Scalar.order .atLeast value limit = .ok (y.related .atLeast x) :=
    Datum.order_of_number? .atLeast valued numbered
  rw [positive, reached]
  -- Both comparisons are made, whatever they say.
  cases x.related .greater (.finite 0) <;> trivial

/-- Readings that are reals are reckoned with where the limits are numbers. -/
theorem timed_datum (R : Type) [HasObjective R Datum] {limits : Limits Datum}
    {clock : Clock κ Datum} (reads : ∀ moment, ∃ now, (clock moment).1 = .float now)
    {iterations time : Extended} (counted : limits.maxIterations.number? = some iterations)
    (numbered : limits.maxTime.number? = some time) {refusable : Fault → Prop}
    (limit : limits.isHeard → Granted (Scalar.fixed 1 limits.maxTime) (fun _ => True) refusable)
    (written : limits.isHeard → ∀ (result : R) (objective : Datum),
      HasObjective.objective result = some objective →
        Granted (Scalar.fixed 4 objective) (fun _ => True) refusable) :
    limits.Timed R clock (fun value => ∃ now, value = .float now) refusable where
  begins := ⟨_, rfl⟩
  shows := reads
  sub := by
    rintro _ _ ⟨later, rfl⟩ ⟨earlier, rfl⟩
    exact ⟨_, rfl⟩
  add := by
    rintro _ _ ⟨total, rfl⟩ ⟨part, rfl⟩
    exact ⟨_, rfl⟩
  iterations _ := granted_order counted rfl refusable
  elapsed := by
    rintro _ ⟨now, rfl⟩
    exact granted_order numbered rfl refusable
  limit := limit
  written := written

variable {K : Type} [Scalar K]

/-- Limits of which none is positive. -/
structure Idle (limits : Limits K) : Prop where
  iterations : Scalar.order .greater limits.maxIterations (Scalar.ofInt 0) = .ok false
  time : Scalar.order .greater limits.maxTime (Scalar.ofInt 0) = .ok false

/-- A run is not cut short by limits of which none is positive. -/
theorem Idle.not_cuts {σ R S A : Type} [HasStatus R S] [HasObjective R K] [Status S] [Answer A]
    {supervisor : Supervisor σ R S A K} (idle : supervisor.limits.Idle)
    (agrees : ∀ watcher ∈ supervisor.watchers, ∀ isSolved round state answer,
      ((watcher isSolved round).run state).result = .ok answer → Answer.yes answer)
    (ending : Ending) : ¬supervisor.Cuts ending := by
  -- One comparison with zero settles each limit before it is compared with anything else.
  rintro (⟨member, said, no⟩ | ⟨spent⟩ | ⟨spent⟩)
  · exact Bool.eq_false_iff.1 no (agrees _ member _ _ _ _ said)
  · simp [Supervisor.iterationsSpent, idle.iterations, bind, Except.bind, pure, Except.pure]
      at spent
  · simp [Supervisor.timeSpent, idle.time, bind, Except.bind, pure, Except.pure] at spent

end Limits

end CuttingPlanes
