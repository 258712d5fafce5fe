import CuttingPlanes.Proofs.Relaxation.Names
import CuttingPlanes.Proofs.Relaxation.Taken

/-!
Additions to a program over an exact solver: one that is refused leaves everything as it was, and
one that is served adds a single column or row.
-/

namespace CuttingPlanes

variable {K ι N : Type}

namespace Held

variable [Scalar K] [Ordinal ι] [RowName N]

/-- The states that a program over an exact solver gets into, whatever has been refused. -/
inductive Reachable (solver : Linear.Solver) : Relaxation K ι N × Held K → Prop where
  | opened (objective : Objective) (timeLimit : Option K) :
      Reachable solver (Relaxation.empty objective, empty objective timeLimit)
  | asked (request : Request K ι N) {state : Relaxation K ι N × Held K} :
      Reachable solver state →
        Reachable solver ((request.perform (backend solver)).run state).state
  | limited (timeLimit : Option K) {record : Relaxation K ι N} {held : Held K} :
      Reachable solver (record, held) →
        Reachable solver (record, { held with timeLimit := timeLimit })

/-- In every state the names of the rows are those that are found. -/
theorem Reachable.indexed [LawfulRowName N] {solver : Linear.Solver}
    {state : Relaxation K ι N × Held K} (reached : Reachable solver state) : state.1.Indexed := by
  induction reached with
  | opened objective timeLimit => exact Relaxation.Indexed.empty objective
  | asked request _ ih => exact (Relaxation.perform_keeps_indexed _ request _ ih).holds_state
  | limited timeLimit _ ih => exact ih

end Held

namespace Relaxation

variable [RowName N]

/-- The names that can be keys are found exactly when they are those of recorded rows. -/
def FindsNames (record : Relaxation K ι N) : Prop :=
  ∀ name, RowName.checkKey name = .ok () → record.hasRow name = .ok (record.isNamed name)

section Gains

variable [Scalar K]

/--
A column has become the last one, at the position that is told. The solver has what it takes of it,
and nothing else has happened.
-/
structure GainsColumn (column : Column K N) (before after : Relaxation K ι N × Held K)
    (position : Nat) : Prop where
  position : position = before.1.columns.length
  record : after.1 = before.1.withColumn column
  held : after.2 = before.2.withColumns column.held?.toList
  names : after.1.FindsNames

/--
A row has become the last one, at the position that is told. The solver has what it takes of it, and
nothing else has happened.
-/
structure GainsRow [Ordinal ι] (row : Row K ι N) (before after : Relaxation K ι N × Held K)
    (position : Nat) : Prop where
  position : position = before.1.rows.length
  record : after.1 = before.1.withRow row
  held : after.2 = before.2.withRows (row.held? before.2.columns.length).toList
  names : after.1.FindsNames

end Gains

theorem Indexed.findsNames {record : Relaxation K ι N} (indexed : record.Indexed) :
    record.FindsNames := fun _ usable => indexed.hasRow_eq usable

variable [Scalar K] [Ordinal ι] {solver : Linear.Solver} {state : Relaxation K ι N × Held K}

/--
A column is refused before anything happens, or it is all that is gained. Only an upper bound that
cannot be handed on is refused behind the record.
-/
theorem addColumn_gains (indexed : state.1.Indexed) (cost lower : K) (upper : Option K)
    (name : Option N) :
    (addColumn (Held.backend solver) cost lower upper name).Meets state
      (fun position after => ∃ column, makeColumn cost lower upper name = .ok column ∧
        GainsColumn column state after position)
      fun cause after => after = state ∨
        Held.upperEnd? upper = none ∧ cause = .raised (.unsuitedArguments "addCol") := by
  rw [meets_addColumn]
  cases made : makeColumn cost lower upper name with
  | error fault => exact .inl rfl
  | ok column =>
    -- The upper bound is recorded and handed on as it was given.
    have same : column.upper = upper := (makeColumn_eq_ok.1 made).2.2.2.1
    refine Held.meets_addColumn.2 ?_
    split
    case isTrue refused => exact .inr ⟨same ▸ refused, rfl⟩
    case isFalse =>
      exact ⟨column, rfl, rfl, rfl, rfl, Indexed.findsNames ⟨indexed.usable, indexed.holds⟩⟩

variable [LawfulRowName N]

/--
A row is refused before anything happens, or it is all that is gained. Only a name that cannot be a
key is refused behind the record.
-/
theorem addRow_gains (indexed : state.1.Indexed) (given : Row K ι N) :
    (addRow (Held.backend solver) given).Meets state
      (fun position after => ∃ row, makeRow state.1.columns.length given = .ok row ∧
        GainsRow row state after position)
      fun cause after => after = state ∨
        ∃ fault, checkName given.name = .error fault ∧ cause = .raised fault := by
  rw [meets_addRow]
  cases made : makeRow state.1.columns.length given with
  | error fault => exact .inl rfl
  | ok row =>
    -- The row is recorded under the name that was given.
    have same : row.name = given.name := (makeRow_eq_ok.1 made).2.2.2.2
    simp only
    cases passed : checkName row.name with
    | error fault => exact .inr ⟨fault, same ▸ passed, rfl⟩
    | ok _ =>
      refine Held.meets_addRow.2 ?_
      exact ⟨row, rfl, rfl, rfl, rfl, (indexed.withRow passed).findsNames⟩

/--
Additions are all or nothing, in any state that a program gets into. A column or row that is served
is all that has been gained, and one that is refused leaves everything as it was. Apart from that are
an upper bound that the solver does not take, a name that cannot be a key, and a way to make rows
that changes the program itself.
-/
theorem additions_are_atomic (reached : Held.Reachable solver state) :
    (∀ cost lower upper name,
      (addColumn (Held.backend solver) cost lower upper name).Meets state
        (fun position after => ∃ column, makeColumn cost lower upper name = .ok column ∧
          GainsColumn column state after position)
        fun cause after => after = state ∨
          Held.upperEnd? upper = none ∧ cause = .raised (.unsuitedArguments "addCol")) ∧
    (∀ coefficients sense rhs name,
      (addStatedRow (Held.backend solver) coefficients sense rhs name).Meets state
        (fun position after => ∃ stated row, Sense.ofDatum sense = .ok stated ∧
          makeRow state.1.columns.length ⟨coefficients, stated, rhs, name⟩ = .ok row ∧
            GainsRow row state after position)
        fun cause after => after = state ∨
          ∃ fault, checkName name = .error fault ∧ cause = .raised fault) ∧
    ∀ (γ : Type) (make : γ → Action (Relaxation K ι N × Held K) (Row K ι N)) (candidate : γ),
      (make candidate).Meets state (fun _ after => after = state) (fun _ after => after = state) →
      (rowAdder (Held.backend solver) make candidate).Meets state
        (fun _ after => ∃ given row, ((make candidate).run state).result = .ok given ∧
          makeRow state.1.columns.length given = .ok row ∧
            GainsRow row state after state.1.rows.length)
        fun cause after => after = state ∨
          ∃ given fault, ((make candidate).run state).result = .ok given ∧
            checkName given.name = .error fault ∧ cause = .raised fault := by
  have indexed := reached.indexed
  refine ⟨addColumn_gains indexed, ?_, ?_⟩
  · intro coefficients sense rhs name
    rw [meets_addStatedRow]
    -- A sense that states none is refused first of all.
    cases Sense.ofDatum sense with
    | error fault => exact .inl rfl
    | ok stated =>
      refine (addRow_gains indexed _).mono ?_
      intro position after ⟨row, made, gains⟩
      exact ⟨stated, row, rfl, made, gains⟩
  · intro γ make candidate leaves
    rw [rowAdder, Action.meets_bind]
    refine leaves.outcome.imp ?_ fun cause after same => .inl same
    rintro given _ ⟨rfl, giving⟩
    -- The row is added in the state in which it was asked for.
    rw [Action.meets_bind]
    refine (addRow_gains indexed given).imp ?_ ?_
    · intro position after ⟨row, made, gains⟩
      exact ⟨given, row, giving, made, gains.position ▸ gains⟩
    · rintro cause after (same | ⟨fault, unusable, raised⟩)
      · exact .inl same
      · exact .inr ⟨given, fault, giving, unusable, raised⟩

/-- A row made for a program with one column is all that the program gains. -/
theorem additions_are_atomic_after_column :
    let opened : Relaxation Datum Datum Datum × Held Datum :=
      (Relaxation.empty .least, Held.empty .least none)
    let asked : Request Datum Datum Datum := .column (.int 1) (.int 0) none none
    let state := ((asked.perform (Held.backend Linear.simplex)).run opened).state
    let cover : Row Datum Datum Datum := ⟨[(.int 0, .int 1)], .atLeast, .int 1, some (.text "cover")⟩
    Held.Reachable Linear.simplex state ∧
      ∃ row, GainsRow row state
        ((rowAdder (Held.backend Linear.simplex) (fun row => pure row) cover).run state).state 0 := by
  intro opened asked state cover
  have reached : Held.Reachable Linear.simplex state := .asked asked (.opened .least none)
  have none : state.1.rows.length = 0 := by decide +kernel
  have returns : ((rowAdder (Held.backend Linear.simplex) (fun row => pure row) cover).run
      state).result = .ok () := by decide +kernel
  -- What has been computed is all that is needed of the state.
  clear_value state
  have met := (additions_are_atomic reached).2.2 _ (fun row => pure row) cover
    (Action.meets_pure.2 rfl)
  obtain ⟨_, row, _, _, gains⟩ := met.of_ok returns
  exact ⟨reached, row, none ▸ gains⟩

/-- A row under a name that cannot be a key is refused, and yet stays in the record. -/
theorem row_of_unusable_name_stays :
    let start : Relaxation Datum Datum Datum × Held Datum :=
      (Relaxation.empty .least, Held.empty .least none)
    let ended := (addStatedRow (Held.backend Linear.simplex) [] (.text "<=") (.int 1)
      (some (.list []))).run start
    Held.Reachable Linear.simplex start ∧
      ended.result = .error (.raised (.unusableKey "list")) ∧
        ended.state.1.rows.length = start.1.rows.length + 1 ∧
          ended.state.2.counts = start.2.counts :=
  ⟨.opened .least none, rfl, rfl, rfl⟩

end Relaxation

end CuttingPlanes
