import CuttingPlanes.Proofs.Exact
import CuttingPlanes.Proofs.Relaxation.Judgement
import CuttingPlanes.Proofs.Relaxation.Taken

/-!
A solver follows the record of a program: it holds what it takes of each column and row, in the
order of the record. Positions are the same on both sides as long as it takes everything.
-/

namespace CuttingPlanes

/-- References that are below a count of columns once they have been checked against it. -/
class LawfulOrdinal (ι : Type) [Ordinal ι] : Prop where
  position_lt {count : Nat} {column : ι} :
    Relaxation.checkColumn count column = .ok () → Ordinal.position column < count

/-- A column that passes is found neither below zero nor behind the last one. -/
theorem Relaxation.order_of_checkColumn {ι : Type} [Ordinal ι] {count : Nat} {column : ι}
    (passed : checkColumn count column = .ok ()) :
    Ordinal.order .atMost (Ordinal.ofNat 0) column = .ok true ∧
      Ordinal.order .less column (Ordinal.ofNat count) = .ok true := by
  obtain ⟨above, first, rest⟩ := bind_eq_ok.1 passed
  -- What is not known would have been refused.
  cases above with
  | false => cases rest
  | true =>
    obtain ⟨known, second, kept⟩ := bind_eq_ok.1 rest
    cases known with
    | false => cases kept
    | true => exact ⟨first, second⟩

instance : LawfulOrdinal Nat where
  position_lt := by
    intro count column passed
    have below := (Relaxation.order_of_checkColumn passed).2
    simpa using below

/-- Only a number stands in a relation to a whole number. -/
theorem Datum.exists_number_of_order {relation : Relation} {whole : Int} {value : Datum}
    (stands : order relation (.int whole) value = .ok true) :
    ∃ number, value.number? = some number ∧
      (Extended.finite whole).related relation number = true := by
  cases value <;> simp_all [order, number?]

/-- Numbers are related as the values that stand for them. -/
theorem Datum.related_of_order {relation : Relation} {whole : Int} {value : Datum}
    {number : Extended} (known : value.number? = some number)
    (stands : order relation value (.int whole) = .ok true) :
    number.related relation (.finite whole) = true := by
  cases value <;> simp_all [order, number?]

/-- A number between two finite ones is finite. -/
theorem Extended.exists_finite {low high : ℚ} {number : Extended}
    (above : (finite low).related .atMost number = true)
    (below : number.related .less (finite high) = true) : ∃ q, number = finite q := by
  cases number with
  | finite q => exact ⟨q, rfl⟩
  | infinite negative => cases negative <;> simp_all [related, compare?, Relation.holds]
  | undefined => simp_all [related, compare?]

instance : LawfulOrdinal Datum where
  position_lt := by
    intro count column passed
    obtain ⟨first, second⟩ := Relaxation.order_of_checkColumn passed
    obtain ⟨number, known, above⟩ := Datum.exists_number_of_order first
    have below := Datum.related_of_order known second
    obtain ⟨q, rfl⟩ := Extended.exists_finite above below
    -- The position is the whole part of a number from zero up to the count.
    rw [Extended.related_finite] at above below
    have least : 0 ≤ q.floor := by
      rw [Rat.le_floor_iff]
      simpa using above
    have most : q.floor < (count : Int) := by
      rw [Rat.floor_lt_iff]
      simpa using below
    have position : Ordinal.position column = q.floor.toNat := by
      show ((column.number?.bind Extended.rational?).getD 0).floor.toNat = q.floor.toNat
      rw [known]
      rfl
    rw [position]
    omega

namespace Relaxation

variable {K ι N : Type} [Scalar K]

/-- Nonzero coefficients are made real where they stand. -/
theorem fst_of_realCoefficients {given made : List (ι × K)}
    (real : realCoefficients given = .ok made) :
    (made.map Prod.fst).Sublist (given.map Prod.fst) := by
  induction given generalizing made with
  | nil =>
    cases real
    exact .slnil
  | cons entry rest ih =>
    obtain ⟨column, coefficient⟩ := entry
    rw [realCoefficients] at real
    split at real
    · -- A zero is left out.
      exact (ih real).cons column
    · obtain ⟨value, _, real⟩ := bind_eq_ok.1 real
      obtain ⟨others, rests, real⟩ := bind_eq_ok.1 real
      cases real
      exact (ih rests).cons_cons column

variable [Ordinal ι]

/-- A recorded row refers to columns that are there. -/
theorem within_of_makeRow [LawfulOrdinal ι] {count : Nat} {given row : Row K ι N}
    (made : makeRow count given = .ok row) : row.Within count := by
  obtain ⟨known, real, -⟩ := makeRow_eq_ok.1 made
  intro term member
  have among := (fst_of_realCoefficients real).subset (List.mem_map_of_mem member)
  obtain ⟨entry, given, same⟩ := List.mem_map.1 among
  exact same ▸ LawfulOrdinal.position_lt (known entry given)

/-- The solver holds what it takes of the recorded columns and rows, in the same order. -/
structure Follows (state : Relaxation K ι N × Held K) : Prop where
  objective : state.2.objective = state.1.objective
  columns : state.2.columns = state.1.columns.filterMap Column.held?
  within : ∀ row ∈ state.1.rows, row.Within state.1.columns.length
  rows : state.2.rows.Sublist (state.1.rows.filterMap (Row.held? state.1.columns.length))
  /-- Rows are taken as they are recorded where no column has been passed over before. -/
  whole : (∀ column ∈ state.1.columns, column.IsTaken) →
    state.2.rows = state.1.rows.filterMap (Row.held? state.1.columns.length)

theorem follows_empty (objective : Objective) (timeLimit : Option K) :
    Follows ((Relaxation.empty objective, Held.empty objective timeLimit) : Relaxation K ι N × _) :=
  ⟨rfl, rfl, nofun, .slnil, fun _ => rfl⟩

/-- What is kept of a single member. -/
theorem filterMap_singleton_eq_toList {α β : Type} (keep : α → Option β) (item : α) :
    [item].filterMap keep = (keep item).toList := rfl

variable {record : Relaxation K ι N} {held : Held K}

/-- A column that is recorded is told, and held if it is taken. -/
theorem Follows.withColumn (follows : Follows (record, held)) (column : Column K N) :
    Follows (record.withColumn column, held.withColumns column.held?.toList) := by
  -- Rows refer to the columns before the new one.
  have grown : ∀ row ∈ record.rows, row.Within (record.columns.length + 1) :=
    fun row member term among => (follows.within row member term among).trans (Nat.lt_succ_self _)
  have same : record.rows.filterMap (Row.held? (record.columns.length + 1)) =
      record.rows.filterMap (Row.held? record.columns.length) :=
    List.filterMap_congr fun row member =>
      Row.held?_congr (grown row member) (follows.within row member)
  have count : (record.withColumn column).columns.length = record.columns.length + 1 := by
    simp [Relaxation.withColumn]
  exact
    { objective := follows.objective
      columns := by
        simp only [Held.withColumns, Relaxation.withColumn, List.filterMap_append,
          ← follows.columns, filterMap_singleton_eq_toList]
      within := by rwa [count]
      rows := by
        rw [count]
        exact same ▸ follows.rows
      whole := by
        intro taken
        rw [count]
        refine same ▸ follows.whole fun other member => taken other ?_
        exact List.mem_append_left _ member }

/-- A row that is recorded is told, and held if it is taken over the columns that are held. -/
theorem Follows.withUnnamed (follows : Follows (record, held)) {row : Row K ι N}
    (within : row.Within record.columns.length) :
    Follows (record.withUnnamed row, held.withRows (row.held? held.columns.length).toList) where
  objective := follows.objective
  columns := follows.columns
  within := by
    intro other member
    rcases List.mem_append.1 member with before | new
    · exact follows.within other before
    · exact List.mem_singleton.1 new ▸ within
  rows := by
    -- What is held over fewer columns would be held over all of them.
    have fewer : (row.held? held.columns.length).toList.Sublist
        ([row].filterMap (Row.held? record.columns.length)) := by
      cases taken : row.held? held.columns.length with
      | none => exact List.nil_sublist _
      | some kept =>
        have known := (Row.held?_isSome_iff.1 (Option.isSome_of_eq_some taken)).1
        rw [filterMap_singleton_eq_toList, ← Row.held?_congr known within, taken]
    simp only [Relaxation.withUnnamed, List.filterMap_append]
    exact follows.rows.append fewer
  whole := by
    intro taken
    have all : held.columns.length = record.columns.length := by
      rw [follows.columns]
      exact List.filterMap_length_eq_length.2 fun column member =>
        Column.held?_isSome_iff.2 (taken column member)
    simp only [Relaxation.withUnnamed, Held.withRows, List.filterMap_append, all,
      ← follows.whole taken, filterMap_singleton_eq_toList]

variable {state : Relaxation K ι N × Held K}

/-- The solver has as many columns and rows as the record. -/
def InStep (state : Relaxation K ι N × Held K) : Prop :=
  state.2.counts.1 = state.1.columns.length ∧ state.2.counts.2.1 = state.1.rows.length

/-- Everything that has been recorded is taken. -/
structure AllTaken (record : Relaxation K ι N) : Prop where
  columns : ∀ column ∈ record.columns, column.IsTaken
  rows : ∀ row ∈ record.rows, row.IsTaken

/-- The linear program of a record, member by member, when all of it is taken. -/
def taken? (record : Relaxation K ι N) : Option Linear.Program := do
  let columns ← record.columns.mapM fun column =>
    column.held?.bind (Held.HeldColumn.settled? record.objective)
  let rows ← record.rows.mapM (Row.held? record.columns.length)
  return ⟨record.objective == .greatest, columns, rows⟩

namespace Follows

variable (follows : Follows state)

include follows

/-- The solver never has more than the record. -/
theorem counts_le :
    state.2.counts.1 ≤ state.1.columns.length ∧ state.2.counts.2.1 ≤ state.1.rows.length := by
  constructor
  · exact (congrArg List.length follows.columns).trans_le (List.length_filterMap_le _ _)
  · exact follows.rows.length_le.trans (List.length_filterMap_le _ _)

/-- What has all been taken is held member by member. -/
theorem mapM_of_allTaken (taken : AllTaken state.1) :
    state.1.columns.mapM Column.held? = some state.2.columns ∧
      state.1.rows.mapM (Row.held? state.1.columns.length) = some state.2.rows := by
  rw [follows.columns, follows.whole taken.columns]
  constructor
  · exact mapM_eq_some_filterMap fun column member =>
      Column.held?_isSome_iff.2 (taken.columns column member)
  · exact mapM_eq_some_filterMap fun row member =>
      Row.held?_isSome_iff.2 ⟨follows.within row member, taken.rows row member⟩

/-- The solver is in step exactly when it has taken everything. -/
theorem inStep_iff : InStep state ↔ AllTaken state.1 := by
  constructor
  · intro ⟨columns, rows⟩
    -- What is held is all that there is room for.
    have kept := (congrArg List.length follows.columns).symm.trans columns
    have also := (List.length_filterMap_le _ _).antisymm (rows.symm.trans_le follows.rows.length_le)
    rw [List.filterMap_length_eq_length] at kept also
    exact ⟨fun column member => Column.held?_isSome_iff.1 (kept column member),
      fun row member => (Row.held?_isSome_iff.1 (also row member)).2⟩
  · intro ⟨columns, rows⟩
    have kept : state.2.columns.length = state.1.columns.length := by
      rw [follows.columns, List.filterMap_length_eq_length]
      exact fun column member => Column.held?_isSome_iff.2 (columns column member)
    have also : state.2.rows.length = state.1.rows.length := by
      rw [follows.whole columns, List.filterMap_length_eq_length]
      exact fun row member => Row.held?_isSome_iff.2 ⟨follows.within row member, rows row member⟩
    exact ⟨kept, also⟩

/-- In step, the program of the solver is that of the record. -/
theorem program?_eq (inStep : InStep state) : state.2.program? = state.1.taken? := by
  obtain ⟨columns, rows⟩ := follows.mapM_of_allTaken (follows.inStep_iff.1 inStep)
  have settled : (state.1.columns.mapM fun column =>
      column.held?.bind (Held.HeldColumn.settled? state.1.objective)) =
        state.2.columns.mapM (Held.HeldColumn.settled? state.1.objective) :=
    mapM_bind_of_mapM columns
  simp only [Held.program?, taken?, settled, rows, follows.objective, Option.bind_eq_bind,
    Option.bind_some]

end Follows

/--
The values and duals of an answer are those that the solver has found for what is recorded, each at
the position of its column or row.
-/
def IsAnsweredBy (record : Relaxation K ι N) (solver : Linear.Solver) (answer : LpAnswer K) :
    Prop :=
  ∃ program point duals, record.taken? = some program ∧ solver program = .optimal point duals ∧
    (∀ position < record.columns.length,
      answer.values[position]? = point[position]?.map Scalar.ofRat) ∧
    ∀ position < record.rows.length,
      answer.duals[position]? = duals[position]?.map Scalar.ofRat

/-- In step, a solved answer is the one to what is recorded. -/
theorem Follows.isAnsweredBy (follows : Follows state) (inStep : InStep state)
    (filled : state.1.columns ≠ []) {solver : Linear.Solver}
    (optimal : (state.2.answer solver state.1.columns.length state.1.rows.length).status =
      .optimal) :
    state.1.IsAnsweredBy solver
      (state.2.answer solver state.1.columns.length state.1.rows.length) := by
  have also : state.2.columns ≠ [] := by
    rw [← List.length_pos_iff] at filled ⊢
    exact filled.trans_eq inStep.1.symm
  have judged := Held.judges solver also
  rw [← Held.status_answer, optimal] at judged
  cases judged with
  | optimal settled found =>
  refine ⟨_, _, _, follows.program?_eq inStep ▸ settled, found, ?_⟩
  -- What is cut off of the values and duals is behind those that are asked for.
  rw [Held.answer_of_optimal also settled found]
  constructor
  · intro position before
    rw [List.getElem?_take_of_lt before, List.getElem?_map]
  · intro position before
    rw [List.getElem?_take_of_lt before, List.getElem?_map]

variable [RowName N] {solver : Linear.Solver}

/-- A request that is served leaves a solver that follows the record. -/
theorem perform_follows [LawfulOrdinal ι] (request : Request K ι N) (follows : Follows state) :
    Action.Ensures (request.perform (Held.backend solver)) state (fun _ => True)
      fun _ after => Follows after := by
  refine (request.perform_served state).mono ?_
  intro _ after served
  cases served with
  | column column => exact follows.withColumn column
  | row made =>
    -- That a row has a name is nothing to the solver.
    have told := follows.withUnnamed (within_of_makeRow made)
    exact ⟨told.objective, told.columns, told.within, told.rows, told.whole⟩
  | solve answer =>
    exact ⟨follows.objective, follows.columns, follows.within, follows.rows, follows.whole⟩

/-- Requests all of which are served leave a solver that follows the record. -/
theorem performAll_follows [LawfulOrdinal ι] (requests : List (Request K ι N))
    (follows : Follows state) :
    Action.Ensures (Request.performAll (Held.backend solver) requests) state (fun _ => True)
      fun _ after => Follows after :=
  Action.forM_ensures (fun request _ _ before => perform_follows request before) follows

/--
A solver is in step with the record exactly when all that has been recorded is taken, and never ahead
of it. In step, each column and row stands at its own position on both sides: at the one that an
addition gives back, and at the one of its value or dual in a solved answer.
-/
theorem inStep_iff_allTaken [LawfulOrdinal ι] (solver : Linear.Solver) (objective : Objective)
    (timeLimit : Option K) (requests : List (Request K ι N)) :
    (Request.performAll (Held.backend solver) requests).Ensures
      (Relaxation.empty objective, Held.empty objective timeLimit) (fun _ => True) fun _ state =>
        (state.2.counts.1 ≤ state.1.columns.length ∧ state.2.counts.2.1 ≤ state.1.rows.length) ∧
        (InStep state ↔ AllTaken state.1) ∧
        (InStep state →
          state.1.columns.mapM Column.held? = some state.2.columns ∧
          state.1.rows.mapM (Row.held? state.1.columns.length) = some state.2.rows ∧
          (solve (Held.backend solver)).Meets state
            (fun answer after => after.1.last = some answer ∧
              (state.1.columns ≠ [] → answer.status = .optimal →
                state.1.IsAnsweredBy solver answer))
            fun _ _ => False) ∧
        (∀ cost lower upper name,
          (addColumn (Held.backend solver) cost lower upper name).Ensures state (fun _ => True)
            fun position after => InStep after → position + 1 = after.2.counts.1) ∧
        ∀ coefficients sense rhs name,
          (addStatedRow (Held.backend solver) coefficients sense rhs name).Ensures state
            (fun _ => True) fun position after => InStep after → position + 1 = after.2.counts.2.1 := by
  -- All of it is said of any solver that follows the record, as one does after these requests.
  refine (performAll_follows requests (follows_empty objective timeLimit)).mono ?_
  intro _ state follows
  refine ⟨follows.counts_le, follows.inStep_iff, ?_, ?_, ?_⟩
  · intro inStep
    obtain ⟨columns, rows⟩ := follows.mapM_of_allTaken (follows.inStep_iff.1 inStep)
    refine ⟨columns, rows, Held.meets_solve.2 ⟨rfl, ?_⟩⟩
    exact fun filled optimal => follows.isAnsweredBy inStep filled optimal
  · intro cost lower upper name
    rw [Action.ensures_iff_meets, meets_addColumn]
    split
    · trivial
    · refine Held.meets_addColumn.2 ?_
      split
      · trivial
      · -- The position told is the last one of the record, and so the last one of the solver.
        intro inStep
        simpa [Relaxation.withColumn] using inStep.1.symm
  · intro coefficients sense rhs name
    rw [Action.ensures_iff_meets, meets_addStatedRow]
    split
    · trivial
    · rw [meets_addRow]
      split
      · trivial
      · split
        · trivial
        · -- The same holds of a row, with or without a name.
          refine Held.meets_addRow.2 fun inStep => ?_
          simpa [Relaxation.withRow, withUnnamed] using inStep.2.symm

/-- A column and a row over it are taken, and so the solver is in step. -/
theorem covered_column_is_in_step :
    let requests : List (Request Datum Datum Datum) :=
      [.column (.int 1) (.int 0) none none, .row [(.int 0, .int 2)] (.text ">=") (.int 3) none]
    let ended := (Request.performAll (Held.backend Linear.simplex) requests).run
      (Relaxation.empty .least, Held.empty .least none)
    ended.result = .ok () ∧ AllTaken ended.state.1 ∧ InStep ended.state := by
  intro requests
  have returns : ((Request.performAll (Held.backend Linear.simplex) requests).run
      (Relaxation.empty .least, Held.empty .least none)).result = .ok () := by decide +kernel
  have inStep : InStep ((Request.performAll (Held.backend Linear.simplex) requests).run
      (Relaxation.empty .least, Held.empty .least none)).state :=
    ⟨by decide +kernel, by decide +kernel⟩
  have kept := (inStep_iff_allTaken Linear.simplex .least none requests).of_ok returns
  exact ⟨returns, kept.2.1.1 inStep, inStep⟩

/-- A row with a great coefficient is recorded and never gets to the solver, without a word. -/
theorem great_coefficient_is_passed_over :
    let ended := (Request.performAll (Held.backend Linear.simplex)
      [.column (.int 1) (.int 0) (some (.int 1)) none,
        .row [(.int 0, .int 1000000000000000)] (.text "<=") (.int 1) none]).run
      ((Relaxation.empty .least, Held.empty .least none) : Relaxation Datum Datum Datum × Held Datum)
    ended.result = .ok () ∧ ended.state.1.columns.length = 1 ∧ ended.state.1.rows.length = 1 ∧
      ended.state.2.counts = (1, 0, 0) := by
  decide +kernel

end Relaxation

end CuttingPlanes
