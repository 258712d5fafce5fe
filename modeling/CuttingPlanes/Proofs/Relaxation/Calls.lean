import CuttingPlanes.Proofs.Action
import CuttingPlanes.Relaxation.Basic

/-! The calls that a program makes to its backend, and the record that it keeps of them. -/

namespace CuttingPlanes

/-- One call of a backend. -/
inductive Call (K ι N : Type) where
  | column (column : Column K N)
  | row (row : Row K ι N)
  | solve

namespace Call

variable {K ι N : Type}

/-- The column that a call adds. -/
def column? : Call K ι N → Option (Column K N)
  | column added => some added
  | _ => none

/-- The row that a call adds. -/
def row? : Call K ι N → Option (Row K ι N)
  | row added => some added
  | _ => none

/-- Whether a call adds a column or a row. -/
def adds : Call K ι N → Bool
  | solve => false
  | _ => true

/-- The columns that calls add, in order. -/
def columns (calls : List (Call K ι N)) : List (Column K N) := calls.filterMap column?

/-- The rows that calls add, in order. -/
def rows (calls : List (Call K ι N)) : List (Row K ι N) := calls.filterMap row?

/-- The rows that each solve among some calls sees, when some rows have been added before. -/
def seen (known : List (Row K ι N)) : List (Call K ι N) → List (List (Row K ι N))
  | [] => []
  | solve :: rest => known :: seen known rest
  | row added :: rest => seen (known ++ [added]) rest
  | column _ :: rest => seen known rest

variable {calls more : List (Call K ι N)}

@[simp] theorem adds_column (added : Column K N) : (column added : Call K ι N).adds = true := rfl

@[simp] theorem adds_row (added : Row K ι N) : (row added).adds = true := rfl

@[simp] theorem adds_solve : (solve : Call K ι N).adds = false := rfl

@[simp] theorem columns_nil : columns ([] : List (Call K ι N)) = [] := rfl

@[simp] theorem columns_column (added : Column K N) :
    columns (column added :: calls) = added :: columns calls := rfl

@[simp] theorem columns_row (added : Row K ι N) :
    columns (row added :: calls) = columns calls := rfl

@[simp] theorem columns_solve : columns (solve :: calls) = columns calls := rfl

@[simp] theorem rows_nil : rows ([] : List (Call K ι N)) = [] := rfl

@[simp] theorem rows_column (added : Column K N) : rows (column added :: calls) = rows calls := rfl

@[simp] theorem rows_row (added : Row K ι N) :
    rows (row added :: calls) = added :: rows calls := rfl

@[simp] theorem rows_solve : rows (solve :: calls) = rows calls := rfl

@[simp] theorem columns_append : columns (calls ++ more) = columns calls ++ columns more :=
  List.filterMap_append

@[simp] theorem rows_append : rows (calls ++ more) = rows calls ++ rows more :=
  List.filterMap_append

section Map

variable {α : Type} (items : List α) (makeColumn : α → Column K N) (makeRow : α → Row K ι N)

@[simp] theorem columns_map_column :
    columns (items.map (column ∘ makeColumn) : List (Call K ι N)) = items.map makeColumn := by
  simp [columns, List.filterMap_map, Function.comp_def, column?]

@[simp] theorem columns_map_row : columns (items.map (row ∘ makeRow)) = [] := by
  simp [columns, List.filterMap_map, Function.comp_def, column?]

@[simp] theorem rows_map_column :
    rows (items.map (column ∘ makeColumn) : List (Call K ι N)) = [] := by
  simp [rows, List.filterMap_map, Function.comp_def, row?]

@[simp] theorem rows_map_row : rows (items.map (row ∘ makeRow)) = items.map makeRow := by
  simp [rows, List.filterMap_map, Function.comp_def, row?]

@[simp] theorem filter_adds_map_column :
    (items.map (column ∘ makeColumn) : List (Call K ι N)).filter adds =
      items.map (column ∘ makeColumn) :=
  List.filter_eq_self.2 (by simp)

end Map

/-- Solves add nothing. -/
@[simp] theorem columns_filter_adds : columns (calls.filter adds) = columns calls := by
  -- A call that is filtered out has no column to give.
  rw [columns, columns, List.filterMap_filter]
  congr 1
  funext call
  cases call <;> rfl

@[simp] theorem rows_filter_adds : rows (calls.filter adds) = rows calls := by
  -- A call that is filtered out has no row to give.
  rw [rows, rows, List.filterMap_filter]
  congr 1
  funext call
  cases call <;> rfl

/-- Later calls see the rows of the earlier ones. -/
theorem seen_append (known : List (Row K ι N)) :
    seen known (calls ++ more) = seen known calls ++ seen (known ++ rows calls) more := by
  -- The rows known so far grow along the calls.
  induction calls generalizing known with
  | nil => simp [seen]
  | cons call calls ih => cases call <;> simp [seen, ih]

/-- Where nothing is solved, nothing is seen. -/
theorem seen_filter_adds (known : List (Row K ι N)) : seen known (calls.filter adds) = [] := by
  induction calls generalizing known with
  | nil => rfl
  | cons call calls ih => cases call <;> simp [seen, List.filter_cons, ih]

/-- Where solves and new rows take turns, each solve sees one row more. -/
theorem seen_turns {α : Type} (makeRow : α → Row K ι N) (known : List (Row K ι N))
    (items : List α) :
    seen known (items.flatMap fun item => [solve, row (makeRow item)]) =
      (List.range items.length).map fun turn => known ++ (items.map makeRow).take turn := by
  -- Each turn shows what is known and then adds its own row.
  induction items generalizing known with
  | nil => rfl
  | cons item rest ih =>
    -- The first turn sees nothing new, and the others one row more than in the rest.
    rw [List.flatMap_cons, List.length_cons, List.range_succ_eq_map, List.map_cons, List.map_map]
    simp [seen, ih]

end Call

namespace Backend

variable {β K ι N : Type} (backend : Backend β K ι N)

/-- A solve with what comes before and after it. -/
def ask (columns rows : Nat) : Action β (LpAnswer K) := do
  backend.before
  backend.after (← backend.solve columns rows)

/-- One call, given the calls before it. -/
def perform (calls : List (Call K ι N)) : Call K ι N → Action β Unit
  | .column column => backend.addColumn column
  | .row row => backend.addRow row
  | .solve => do
      let _ ← backend.ask (Call.columns calls).length (Call.rows calls).length

/-- A backend gets from one state to another by calls in this order, all of which returned. -/
inductive Reaches (start : β) : List (Call K ι N) → β → Prop
  | start : Reaches start [] start
  | step {calls : List (Call K ι N)} {held : β} {call : Call K ι N}
      (reached : Reaches start calls held)
      (returned : ((backend.perform calls call).run held).result = .ok ()) :
      Reaches start (calls ++ [call]) ((backend.perform calls call).run held).state

/-- A backend that has been reached by some calls fails for allowed causes only. -/
def FailsOnly (allowed : Interrupt → Prop) (start : β) : Prop :=
  ∀ calls held, backend.Reaches start calls held →
    ∀ call, Action.Ensures (backend.perform calls call) held allowed fun _ _ => True

/-- Nothing is asked of a backend where every failure is allowed. -/
theorem failsOnly_trivial {start : β} : backend.FailsOnly (fun _ => True) start :=
  fun _ held _ _ => Action.ensures_trivial _ held

/-- Whenever some calls have added what is asked about, the next answer is as promised. -/
def Answers (start : β) (asked : List (Call K ι N) → Prop)
    (promised : List (Call K ι N) → LpAnswer K → Prop) : Prop :=
  ∀ calls held, backend.Reaches start calls held → asked (calls.filter Call.adds) →
    Action.Ensures (backend.ask (Call.columns calls).length (Call.rows calls).length) held
      (fun _ => True) fun answer _ => promised (calls.filter Call.adds) answer

variable {backend}

/-- A call that may be made extends the calls that have been made. -/
theorem Reaches.perform {allowed : Interrupt → Prop} {start held : β} {calls : List (Call K ι N)}
    (reached : backend.Reaches start calls held) (reliable : backend.FailsOnly allowed start)
    (call : Call K ι N) :
    Action.Ensures (backend.perform calls call) held allowed fun _ after =>
      backend.Reaches start (calls ++ [call]) after := by
  -- A call that has given a value is one that has returned.
  refine (reliable calls held reached call).outcome.mono fun value after outcome => ?_
  obtain ⟨-, returned, rfl⟩ := outcome
  exact reached.step returned

/-- What is promised of every answer twice over holds of it in both ways. -/
theorem Answers.and {start : β} {asked : List (Call K ι N) → Prop}
    {promised other : List (Call K ι N) → LpAnswer K → Prop}
    (answers : backend.Answers start asked promised) (also : backend.Answers start asked other) :
    backend.Answers start asked fun calls answer => promised calls answer ∧ other calls answer :=
  fun calls held reached posed =>
    (answers calls held reached posed).and_of_value (also calls held reached posed)

/-- What is promised wherever more is asked about is promised where less is asked about. -/
theorem Answers.imp {start : β} {asked fewer : List (Call K ι N) → Prop}
    {promised other : List (Call K ι N) → LpAnswer K → Prop}
    (answers : backend.Answers start asked promised) (among : ∀ calls, fewer calls → asked calls)
    (weaker : ∀ calls answer, fewer calls → promised calls answer → other calls answer) :
    backend.Answers start fewer other :=
  fun calls held reached posed =>
    (answers calls held reached (among _ posed)).mono fun answer _ told => weaker _ answer posed told

/-- A backend beside the list of the calls made to it. -/
def listened (backend : Backend β K ι N) : Backend (List (Call K ι N) × β) K ι N where
  addColumn column := do
    (backend.addColumn column).onSecond
    Action.modify fun state => (state.1 ++ [.column column], state.2)
  addRow row := do
    (backend.addRow row).onSecond
    Action.modify fun state => (state.1 ++ [.row row], state.2)
  before := backend.before.onSecond
  solve columns rows := (backend.solve columns rows).onSecond
  after answer := do
    let answer ← (backend.after answer).onSecond
    Action.modify fun state => (state.1 ++ [.solve], state.2)
    return answer

/-- A call is heard once it has returned. -/
theorem listened_perform (calls : List (Call K ι N)) (call : Call K ι N) :
    backend.listened.perform calls call = (do
      (backend.perform calls call).onSecond
      Action.modify fun state => (state.1 ++ [call], state.2)) := by
  -- Adding is heard after it is done, and a solve after its answer has been turned.
  cases call <;> simp [perform, listened, ask]

/-- What has been heard are the calls that were made, and they were made to the backend. -/
theorem Reaches.of_listened {start : β} {heard calls : List (Call K ι N)}
    {state : List (Call K ι N) × β}
    (reached : backend.listened.Reaches (heard, start) calls state) :
    state.1 = heard ++ calls ∧ backend.Reaches start calls state.2 := by
  -- The list that is heard and the calls grow together.
  induction reached with
  | start => exact ⟨(List.append_nil heard).symm, .start⟩
  | @step calls state call _ returned ih =>
    obtain ⟨heard, reached⟩ := ih
    rw [listened_perform] at returned ⊢
    simp only [Action.run_bind, Action.run_onSecond, Action.run_modify] at returned ⊢
    -- Only a call that returned gets as far as being heard.
    cases made : ((backend.perform calls call).run state.2).result with
    | error cause => simp [made] at returned
    | ok value => exact ⟨by simp [heard], reached.step made⟩

/-- Listening to a backend lets it fail for no other causes. -/
theorem FailsOnly.listened {allowed : Interrupt → Prop} {start : β}
    (reliable : backend.FailsOnly allowed start) (heard : List (Call K ι N)) :
    backend.listened.FailsOnly allowed (heard, start) := by
  intro calls state reached call
  -- Hearing a call cannot fail, and the call is made to a state that was reached before.
  rw [listened_perform]
  simpa using reliable calls state.2 reached.of_listened.2 call

/-- Listening to a backend leaves its answers as they are. -/
theorem Answers.listened {start : β} {asked : List (Call K ι N) → Prop}
    {promised : List (Call K ι N) → LpAnswer K → Prop}
    (answers : backend.Answers start asked promised) (heard : List (Call K ι N)) :
    backend.listened.Answers (heard, start) asked promised := by
  intro calls state reached posed
  -- The backend below has been reached by the same calls.
  have answered := answers calls state.2 reached.of_listened.2 posed
  simpa [ask, Backend.listened] using answered

end Backend

end CuttingPlanes
