import CuttingPlanes.Proofs.Outcome
import CuttingPlanes.Relaxation.Basic

/-! What a program is asked for, one request after another, and all that a request can do. -/

namespace CuttingPlanes

namespace Action

variable {σ α β : Type}

/-- What every computation of a list keeps is kept by all of them, when all of them give a value. -/
theorem forM_ensures {perform : β → Action σ PUnit} {holds : σ → Prop} {items : List β}
    (step : ∀ item ∈ items, ∀ state, holds state →
      Ensures (perform item) state (fun _ => True) fun _ after => holds after)
    {state : σ} (held : holds state) :
    Ensures (items.forM perform) state (fun _ => True) fun _ after => holds after := by
  -- The first computation hands its state on to the rest.
  induction items generalizing state with
  | nil => exact held
  | cons item rest ih =>
    show Ensures (perform item >>= fun _ => rest.forM perform) _ _ _
    rw [ensures_bind]
    refine (step item List.mem_cons_self state held).mono ?_
    intro _ after kept
    exact ih (fun other member => step other (List.mem_cons_of_mem item member)) kept

/-- What is met at every end holds of the state that is left. -/
theorem Meets.holds_state {action : Action σ α} {state : σ} {holds : σ → Prop}
    (met : Meets action state (fun _ after => holds after) fun _ after => holds after) :
    holds (action.run state).state := by
  unfold Meets at met
  split at met <;> exact met

end Action

namespace Relaxation

variable {β K ι N : Type}

/-- A check of every member of a list passes when it passes for each of them. -/
theorem forM_eq_ok {α : Type} {check : α → Except Fault Unit} {items : List α} :
    items.forM check = .ok () ↔ ∀ item ∈ items, check item = .ok () := by
  induction items with
  | nil => simp [pure, Except.pure]
  | cons item rest ih =>
    have first : (item :: rest).forM check = check item >>= fun _ => rest.forM check := rfl
    rw [first, bind_eq_ok, List.forall_mem_cons, ← ih]
    -- The check of the first member gives no other value.
    exact ⟨fun ⟨(), passed, others⟩ => ⟨passed, others⟩, fun passed => ⟨(), passed⟩⟩

/-- A column is recorded with its bounds in order, cost and lower bound made real. -/
theorem makeColumn_eq_ok [Scalar K] {cost lower : K} {upper : Option K} {name : Option N}
    {column : Column K N} :
    makeColumn cost lower upper name = .ok column ↔
      checkBounds lower upper = .ok () ∧ Scalar.real cost = .ok column.cost ∧
        Scalar.real lower = .ok column.lower ∧ column.upper = upper ∧ column.name = name := by
  simp only [makeColumn, bind_eq_ok, pure, Except.pure, Except.ok.injEq]
  constructor
  · rintro ⟨_, ordered, cost, costly, low, lowest, rfl⟩
    exact ⟨ordered, costly, lowest, rfl, rfl⟩
  · rintro ⟨ordered, costly, lowest, rfl, rfl⟩
    exact ⟨(), ordered, column.cost, costly, column.lower, lowest, rfl⟩

/-- A row is recorded over known columns, coefficients and right side made real. -/
theorem makeRow_eq_ok [Scalar K] [Ordinal ι] {count : Nat} {given row : Row K ι N} :
    makeRow count given = .ok row ↔
      (∀ entry ∈ given.coefficients, checkColumn count entry.1 = .ok ()) ∧
        realCoefficients given.coefficients = .ok row.coefficients ∧ row.sense = given.sense ∧
          Scalar.real given.rhs = .ok row.rhs ∧ row.name = given.name := by
  simp only [makeRow, bind_eq_ok, pure, Except.pure, Except.ok.injEq, ← forM_eq_ok]
  constructor
  · rintro ⟨_, known, coefficients, real, rhs, side, rfl⟩
    exact ⟨known, real, rfl, side, rfl⟩
  · intro ⟨known, real, sense, side, name⟩
    exact ⟨(), known, row.coefficients, real, row.rhs, side, by rw [← sense, ← name]⟩

/-- The record with one more column. -/
def withColumn (record : Relaxation K ι N) (column : Column K N) : Relaxation K ι N :=
  { record with columns := record.columns ++ [column] }

/-- The record with one more row, which has not been named yet. -/
def withUnnamed (record : Relaxation K ι N) (row : Row K ι N) : Relaxation K ι N :=
  { record with rows := record.rows ++ [row] }

/-- Refuses a name that cannot be a key. -/
def checkName [RowName N] (name : Option N) : Except Fault Unit :=
  match name with
  | none => .ok ()
  | some name => RowName.checkKey name

/-- The record with one more row, found by its name if it has one. -/
def withRow [RowName N] (record : Relaxation K ι N) (row : Row K ι N) : Relaxation K ι N :=
  { record.withUnnamed row with
    names := match row.name with
      | none => record.names
      | some name => Association.insert name record.rows.length record.names }

section Steps

variable {backend : Backend β K ι N} {state : Relaxation K ι N × β}
  {given : Nat → Relaxation K ι N × β → Prop} {failed : Interrupt → Relaxation K ι N × β → Prop}

/-- A column is refused ahead of everything, or recorded and then handed to the backend. -/
theorem meets_addColumn [Scalar K] {cost lower : K} {upper : Option K} {name : Option N} :
    Action.Meets (addColumn backend cost lower upper name) state given failed ↔
      match makeColumn cost lower upper name with
      | .error fault => failed (.raised fault) state
      | .ok column => (backend.addColumn column).Meets state.2
          (fun _ held => given state.1.columns.length (state.1.withColumn column, held))
          fun cause held => failed cause (state.1.withColumn column, held) := by
  rw [addColumn, Action.meets_bind, Action.meets_ofExcept]
  -- Nothing has happened yet when the column is refused.
  cases makeColumn cost lower upper name with
  | error fault => exact Iff.rfl
  | ok column =>
    simp only [Action.meets_bind, Action.meets_get, Action.meets_modify, Action.meets_onSecond,
      Action.meets_pure, withColumn]

variable [RowName N]

omit [RowName N] in
/-- The answer of a solve is kept, unless the backend fails. -/
theorem meets_solve {given : LpAnswer K → Relaxation K ι N × β → Prop} :
    Action.Meets (solve backend) state given failed ↔
      Action.Meets (do
        backend.before
        backend.after (← backend.solve state.1.columns.length state.1.rows.length)) state.2
          (fun answer held => given answer ({ state.1 with last := some answer }, held))
          fun cause held => failed cause (state.1, held) := by
  simp only [solve, Action.meets_bind, Action.meets_get, Action.meets_modify,
    Action.meets_onSecond, Action.meets_pure]

/-- A name is noted behind the row that it belongs to, unless it cannot be a key. -/
theorem meets_nameRow {row : Row K ι N} {given : Unit → Relaxation K ι N × β → Prop} :
    Action.Meets (nameRow row.name state.1.rows.length) (state.1.withUnnamed row, state.2) given
        failed ↔
      match checkName row.name with
      | .error fault => failed (.raised fault) (state.1.withUnnamed row, state.2)
      | .ok _ => given () (state.1.withRow row, state.2) := by
  unfold nameRow checkName withRow
  cases row.name with
  | none => exact Iff.rfl
  | some name =>
    simp only [Action.meets_bind, Action.meets_ofExcept, Action.meets_modify]
    -- The table of names is touched only if the name passes.
    cases RowName.checkKey name <;> exact Iff.rfl

variable [Scalar K] [Ordinal ι]

/-- A row is refused ahead of everything, or recorded, named and then handed to the backend. -/
theorem meets_addRow {row : Row K ι N} :
    Action.Meets (addRow backend row) state given failed ↔
      match makeRow state.1.columns.length row with
      | .error fault => failed (.raised fault) state
      | .ok row =>
          match checkName row.name with
          | .error fault => failed (.raised fault) (state.1.withUnnamed row, state.2)
          | .ok _ => (backend.addRow row).Meets state.2
              (fun _ held => given state.1.rows.length (state.1.withRow row, held))
              fun cause held => failed cause (state.1.withRow row, held) := by
  simp only [addRow, Action.meets_bind, Action.meets_get, Action.meets_ofExcept]
  cases makeRow state.1.columns.length row with
  | error fault => exact Iff.rfl
  | ok row =>
    simp only [Action.meets_modify, Action.meets_onSecond, Action.meets_pure]
    -- The row is in the record when its name is looked at.
    exact meets_nameRow

/-- A row whose sense is none is refused ahead of everything else. -/
theorem meets_addStatedRow {coefficients : List (ι × K)} {sense : Datum} {rhs : K}
    {name : Option N} :
    Action.Meets (addStatedRow backend coefficients sense rhs name) state given failed ↔
      match Sense.ofDatum sense with
      | .error fault => failed (.raised fault) state
      | .ok sense => Action.Meets (addRow backend ⟨coefficients, sense, rhs, name⟩) state given
          failed := by
  rw [addStatedRow, Action.meets_bind, Action.meets_ofExcept]
  cases Sense.ofDatum sense <;> exact Iff.rfl

end Steps

end Relaxation

/-- What a program is asked for; the coefficients of a row are given by pairs. -/
inductive Request (K ι N : Type) where
  | column (cost lower : K) (upper : Option K) (name : Option N)
  | row (pairs : List (ι × K)) (sense : Datum) (rhs : K) (name : Option N)
  | solve

namespace Request

variable {β K ι N : Type} [Scalar K] [Ordinal ι] [RowName N]

/-- A request made to a program; of equal references among the pairs the last one counts. -/
def perform (backend : Backend β K ι N) : Request K ι N → Action (Relaxation K ι N × β) Unit
  | column cost lower upper name => do
      let _ ← Relaxation.addColumn backend cost lower upper name
  | row pairs sense rhs name => do
      let _ ← Relaxation.addStatedRow backend (Association.ofPairs pairs) sense rhs name
  | solve => do
      let _ ← Relaxation.solve backend

/-- Requests one after another, up to the first that is refused. -/
def performAll (backend : Backend β K ι N) (requests : List (Request K ι N)) :
    Action (Relaxation K ι N × β) Unit :=
  requests.forM (perform backend)

end Request

end CuttingPlanes
