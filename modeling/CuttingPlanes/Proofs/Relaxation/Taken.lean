import CuttingPlanes.Proofs.Relaxation.Request
import CuttingPlanes.Relaxation.Held
import Mathlib.Algebra.Order.Ring.Rat

/-! What a solver takes of a recorded column or row, and what it passes over in silence. -/

namespace CuttingPlanes

namespace Held

/-- Ends that a solver takes: an interval that is not beyond everything finite. -/
structure TakesEnds (lower upper : Extended) : Prop where
  lower : lower.related .less (.finite infinity) = true
  upper : upper.related .greater (.finite (-infinity)) = true

instance (lower upper : Extended) : Decidable (TakesEnds lower upper) :=
  decidable_of_iff (_ ∧ _) ⟨fun both => ⟨both.1, both.2⟩, fun taken => ⟨taken.1, taken.2⟩⟩

/-- An interval is made of ends exactly when these are taken. -/
theorem bounds?_isSome_iff {lower upper : Extended} :
    (bounds? lower upper).isSome = true ↔ TakesEnds lower upper := by
  unfold bounds?
  split
  case isTrue both =>
    rw [Bool.and_eq_true] at both
    exact ⟨fun _ => ⟨both.1, both.2⟩, fun _ => rfl⟩
  case isFalse refused =>
    refine ⟨nofun, fun taken => (refused ?_).elim⟩
    rw [Bool.and_eq_true]
    exact ⟨taken.lower, taken.upper⟩

/-- The coefficient that counts for a solver, if a term has one. -/
def counted? (term : Nat × Extended) : Option (Nat × ℚ) :=
  match term.2 with
  | .finite a => if |a| ≤ tiny then none else some (term.1, a)
  | _ => none

/-- Terms that a solver takes where it knows their columns. -/
structure TakesTerms (terms : List (Nat × Extended)) : Prop where
  size : ∀ term ∈ terms, ∃ a, term.2 = .finite a ∧ |a| < greatestCoefficient
  nodup : (terms.map Prod.fst).Nodup

theorem takesTerms_nil : TakesTerms [] := ⟨nofun, List.nodup_nil⟩

theorem takesTerms_cons {term : Nat × Extended} {rest : List (Nat × Extended)} :
    TakesTerms (term :: rest) ↔
      ((∃ a, term.2 = .finite a ∧ |a| < greatestCoefficient) ∧ term.1 ∉ rest.map Prod.fst) ∧
        TakesTerms rest := by
  constructor
  · intro ⟨size, nodup⟩
    rw [List.forall_mem_cons] at size
    rw [List.map_cons, List.nodup_cons] at nodup
    exact ⟨⟨size.1, nodup.1⟩, size.2, nodup.2⟩
  · intro ⟨⟨first, fresh⟩, size, nodup⟩
    exact ⟨List.forall_mem_cons.2 ⟨first, size⟩, List.nodup_cons.2 ⟨fresh, nodup⟩⟩

/-- Terms over known columns are taken when each may be, and those stay that count. -/
theorem terms?_eq_some_iff {count : Nat} {terms : List (Nat × Extended)}
    {kept : List (Nat × ℚ)} :
    terms? count terms = some kept ↔
      (∀ term ∈ terms, term.1 < count) ∧ TakesTerms terms ∧ terms.filterMap counted? = kept := by
  induction terms generalizing kept with
  | nil => simp [terms?, takesTerms_nil]
  | cons term rest ih =>
    obtain ⟨column, coefficient⟩ := term
    rw [takesTerms_cons, List.forall_mem_cons]
    cases coefficient with
    | infinite negative => simp [terms?]
    | undefined => simp [terms?]
    | finite a =>
      -- The size of a coefficient is compared, whatever its sign.
      have size : (if a < 0 then -a else a) = |a| := by
        rcases lt_or_ge a 0 with below | above
        · rw [if_pos below, abs_of_neg below]
        · rw [if_neg above.not_gt, abs_of_nonneg above]
      have counts : (((column, .finite a) : Nat × Extended) :: rest).filterMap counted? =
          if |a| ≤ tiny then rest.filterMap counted? else (column, a) :: rest.filterMap counted? := by
        by_cases small : |a| ≤ tiny <;> simp [counted?, small]
      have fits : ¬(greatestCoefficient ≤ |a| ∨ count ≤ column ∨ column ∈ rest.map Prod.fst) ↔
          |a| < greatestCoefficient ∧ column < count ∧ column ∉ rest.map Prod.fst := by
        simp only [not_or, not_le]
      simp only [terms?, size, counts, Option.bind_eq_bind, Option.bind_eq_some_iff, ih]
      constructor
      · rintro ⟨_, ⟨known, takes, rfl⟩, put⟩
        -- A term that is refused would have left nothing.
        split at put
        case isTrue => cases put
        case isFalse not_refused =>
          obtain ⟨moderate, before, fresh⟩ := fits.1 not_refused
          refine ⟨⟨before, known⟩, ⟨⟨⟨a, rfl, moderate⟩, fresh⟩, takes⟩, ?_⟩
          split at put
          case isTrue small => rw [if_pos small, Option.some.inj put]
          case isFalse large => rw [if_neg large, Option.some.inj put]
      · rintro ⟨⟨before, known⟩, ⟨⟨⟨_, ⟨⟩, moderate⟩, fresh⟩, takes⟩, rfl⟩
        refine ⟨_, ⟨known, takes, rfl⟩, ?_⟩
        rw [if_neg (fits.2 ⟨moderate, before, fresh⟩), apply_ite some]

end Held

variable {K ι N : Type} [Scalar K]

/-- The column that a solver holds for a recorded one, if it takes it. -/
def Column.held? (column : Column K N) : Option HeldColumn := do
  let upper ← Held.upperEnd? column.upper
  let bounds ← Held.bounds? (Scalar.exact column.lower) upper
  return ⟨Held.heldCost (Scalar.exact column.cost), bounds⟩

/-- A column that a solver takes. -/
def Column.IsTaken (column : Column K N) : Prop :=
  ∃ upper, Held.upperEnd? column.upper = some upper ∧
    Held.TakesEnds (Scalar.exact column.lower) upper

/-- A column is held for a recorded one exactly when this is taken. -/
theorem Column.held?_isSome_iff {column : Column K N} :
    column.held?.isSome = true ↔ column.IsTaken := by
  unfold held? IsTaken
  cases Held.upperEnd? column.upper with
  | none => simp
  | some upper =>
    simp only [Option.bind_eq_bind, Option.bind_some, Option.some.injEq, exists_eq_left',
      ← Held.bounds?_isSome_iff]
    cases Held.bounds? (Scalar.exact column.lower) upper <;> simp

variable [Ordinal ι]

/-- The row that a solver with a count of columns holds for a recorded one, if it takes it. -/
def Row.held? (count : Nat) (row : Row K ι N) : Option Linear.Row := do
  let ends := Held.rowEnds row.sense (Scalar.exact row.rhs)
  let bounds ← Held.bounds? ends.1 ends.2
  let terms ← Held.terms? count (Held.exactTerms row.coefficients)
  return ⟨terms, bounds⟩

/-- The columns that a row refers to are among so many. -/
def Row.Within (count : Nat) (row : Row K ι N) : Prop :=
  ∀ term ∈ row.coefficients, Ordinal.position term.1 < count

/-- A row that a solver takes when it knows its columns. -/
structure Row.IsTaken (row : Row K ι N) : Prop where
  ends : Held.TakesEnds (Held.rowEnds row.sense (Scalar.exact row.rhs)).1
    (Held.rowEnds row.sense (Scalar.exact row.rhs)).2
  terms : Held.TakesTerms (Held.exactTerms row.coefficients)

namespace Row

variable {row : Row K ι N} {count : Nat}

theorem within_iff :
    row.Within count ↔ ∀ term ∈ Held.exactTerms row.coefficients, term.1 < count := by
  rw [Held.exactTerms, List.forall_mem_map]
  exact Iff.rfl

/-- A row is held for a recorded one exactly when this is taken over known columns. -/
theorem held?_isSome_iff : (row.held? count).isSome = true ↔ row.Within count ∧ row.IsTaken := by
  unfold held?
  rw [within_iff, Option.isSome_iff_exists]
  simp only [Option.bind_eq_bind, Option.bind_eq_some_iff, Held.terms?_eq_some_iff]
  constructor
  · intro ⟨_, bounds, bounded, _, ⟨known, takes, _⟩, _⟩
    exact ⟨known, Held.bounds?_isSome_iff.1 (Option.isSome_of_eq_some bounded), takes⟩
  · intro ⟨known, ends, takes⟩
    obtain ⟨bounds, bounded⟩ := Option.isSome_iff_exists.1 (Held.bounds?_isSome_iff.2 ends)
    exact ⟨_, bounds, bounded, _, ⟨known, takes, rfl⟩, rfl⟩

/-- Columns beyond those that a row refers to do not matter for what is held of it. -/
theorem held?_congr {other : Nat} (within : row.Within count) (also : row.Within other) :
    row.held? count = row.held? other := by
  have same : Held.terms? count (Held.exactTerms row.coefficients) =
      Held.terms? other (Held.exactTerms row.coefficients) := by
    refine Option.ext fun kept => ?_
    rw [Held.terms?_eq_some_iff, Held.terms?_eq_some_iff]
    exact and_congr_left fun _ => iff_of_true (within_iff.1 within) (within_iff.1 also)
  simp only [held?, same]

end Row

namespace Held

/-- The model with some more columns. -/
def withColumns (held : Held K) (added : List HeldColumn) : Held K :=
  { held with columns := held.columns ++ added }

/-- The model with some more rows. -/
def withRows (held : Held K) (added : List Linear.Row) : Held K :=
  { held with rows := held.rows ++ added }

/-- What is taken of a column is added, unless its upper bound cannot be handed on. -/
theorem meets_addColumn {column : Column K N} {held : Held K} {given : Unit → Held K → Prop}
    {failed : Interrupt → Held K → Prop} :
    (addColumn column).Meets held given failed ↔
      if upperEnd? column.upper = none then failed (.raised (.unsuitedArguments "addCol")) held
      else given () (held.withColumns column.held?.toList) := by
  unfold addColumn Column.held?
  cases upperEnd? column.upper with
  | none => exact Iff.rfl
  | some upper =>
    simp only [Option.bind_eq_bind, Option.bind_some, reduceCtorEq, if_false]
    cases bounds? (Scalar.exact column.lower) upper with
    | none => simp [withColumns]
    | some bounds => exact Iff.rfl

/-- What is taken of a row is added, and nothing is refused aloud. -/
theorem meets_addRow {row : Row K ι N} {held : Held K} {given : Unit → Held K → Prop}
    {failed : Interrupt → Held K → Prop} :
    (addRow row).Meets held given failed ↔
      given () (held.withRows (row.held? held.columns.length).toList) := by
  simp only [addRow, Row.held?, Action.meets_bind, Action.meets_get]
  cases bounds? (rowEnds row.sense (Scalar.exact row.rhs)).1
      (rowEnds row.sense (Scalar.exact row.rhs)).2 with
  | none => simp [withRows]
  | some bounds =>
    cases terms? held.columns.length (exactTerms row.coefficients) with
    | none => simp [withRows]
    | some terms => exact Iff.rfl

end Held

variable [RowName N]

/--
What becomes of a program and its solver by a request that is served: one more column or row in the
record, of which the solver has what it takes, or one more answer.
-/
inductive Request.Served (state : Relaxation K ι N × Held K) : Relaxation K ι N × Held K → Prop
  | column (column : Column K N) :
      Served state (state.1.withColumn column, state.2.withColumns column.held?.toList)
  | row {pairs : List (ι × K)} {sense : Sense} {rhs : K} {name : Option N} {row : Row K ι N}
      (made : Relaxation.makeRow state.1.columns.length
        ⟨Association.ofPairs pairs, sense, rhs, name⟩ = .ok row) :
      Served state
        (state.1.withRow row, state.2.withRows (row.held? state.2.columns.length).toList)
  | solve (answer : LpAnswer K) : Served state ({ state.1 with last := some answer }, state.2)

/-- A request does one of these things when it is served. -/
theorem Request.perform_served {solver : Linear.Solver} (request : Request K ι N)
    (state : Relaxation K ι N × Held K) :
    Action.Ensures (request.perform (Held.backend solver)) state (fun _ => True)
      fun _ after => Served state after := by
  rw [Action.ensures_iff_meets]
  cases request with
  | column cost lower upper name =>
    rw [perform, Action.meets_bind, Relaxation.meets_addColumn]
    split
    · -- The column has been refused ahead of everything.
      trivial
    · refine Held.meets_addColumn.2 ?_
      split
      · -- Its upper bound has been refused by the solver.
        trivial
      · exact .column _
  | row pairs sense rhs name =>
    rw [perform, Action.meets_bind, Relaxation.meets_addStatedRow]
    split
    · -- There is no such sense.
      trivial
    · rw [Relaxation.meets_addRow]
      split
      · -- The row cannot be recorded.
        trivial
      · split
        · -- Its name cannot be a key.
          trivial
        · exact Held.meets_addRow.2 (.row ‹_›)
  | solve =>
    rw [perform, Action.meets_bind, Relaxation.meets_solve]
    exact .solve _

end CuttingPlanes
