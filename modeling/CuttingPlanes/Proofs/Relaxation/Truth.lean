import CuttingPlanes.Proofs.Association
import CuttingPlanes.Proofs.Relaxation.Held
import CuttingPlanes.Proofs.Relaxation.Lockstep
import CuttingPlanes.Proofs.Relaxation.Points

/-!
A solver answers for the record of a program with small data, as far as its coefficients count. A
program without columns is called solved whatever its rows say.
-/

namespace CuttingPlanes

variable {N : Type}

/-- A row without the coefficients that do not count for a solver. -/
def Row.counted (row : Row ℚ Nat N) : Row ℚ Nat N :=
  { row with coefficients := row.coefficients.filter fun term => Held.tiny < |term.2| }

namespace Relaxation

/-- The record without the coefficients that do not count for a solver. -/
def counted (record : Relaxation ℚ Nat N) : Relaxation ℚ Nat N :=
  { record with rows := record.rows.map Row.counted }

/-- A number that is smaller in size than the coefficients that are refused. -/
def IsSmall (q : ℚ) : Prop := |q| < Held.greatestCoefficient

instance (q : ℚ) : Decidable (IsSmall q) := inferInstanceAs (Decidable (_ < _))

/-- All numbers of a record are small. -/
structure HasSmallData (record : Relaxation ℚ Nat N) : Prop where
  columns : ∀ column ∈ record.columns,
    IsSmall column.cost ∧ IsSmall column.lower ∧ ∀ upper ∈ column.upper, IsSmall upper
  rows : ∀ row ∈ record.rows, IsSmall row.rhs ∧ ∀ term ∈ row.coefficients, IsSmall term.2

instance (record : Relaxation ℚ Nat N) : Decidable record.HasSmallData :=
  decidable_of_iff (_ ∧ _) ⟨fun both => ⟨both.1, both.2⟩, fun small => ⟨small.1, small.2⟩⟩

/-- No row refers to a column twice. -/
def HasDistinctTerms (record : Relaxation ℚ Nat N) : Prop :=
  ∀ row ∈ record.rows, (row.coefficients.map Prod.fst).Nodup

/-- Where every coefficient counts, nothing is left out. -/
theorem counted_eq_self {record : Relaxation ℚ Nat N}
    (counts : ∀ row ∈ record.rows, ∀ term ∈ row.coefficients, Held.tiny < |term.2|) :
    record.counted = record := by
  have same : record.rows.map Row.counted = record.rows := by
    refine (List.map_congr_left fun row member => ?_).trans (List.map_id record.rows)
    have all : row.coefficients.filter (fun term => Held.tiny < |term.2|) = row.coefficients := by
      simpa using counts row member
    rw [Row.counted, all, id]
  rw [counted, same]

/-- A small number does not count as infinite. -/
theorem IsSmall.isModerate {q : ℚ} (small : IsSmall q) : Held.IsModerate q := by
  have bounds : Held.greatestCoefficient < Held.infinity := by decide +kernel
  obtain ⟨below, above⟩ := abs_lt.1 small
  exact ⟨by linarith, by linarith⟩

end Relaxation

/-- The coefficients that count are the ones that are held. -/
theorem Held.filterMap_counted? (terms : List (Nat × ℚ)) :
    (exactTerms terms).filterMap counted? = terms.filter fun term => tiny < |term.2| := by
  rw [exactTerms, List.filterMap_map, ← List.filterMap_eq_filter]
  congr 1
  funext term
  by_cases small : |term.2| ≤ tiny
  · simp [counted?, small, Option.guard]
  · simp [counted?, small, Option.guard, not_le.1 small]

/-- A column of moderate numbers is held with its own cost and bounds. -/
theorem Column.held?_eq {column : Column ℚ N} (kept : column.IsKept) :
    column.held? = some ⟨.finite column.cost, column.linear.bounds⟩ := by
  have low : ∀ limit ∈ column.linear.bounds.lower, Held.IsModerate limit := by
    simpa [Column.linear] using kept.lower
  have taken := Held.bounds?_eq_some low kept.upper
  have cost : Held.heldCost (.finite column.cost) = .finite column.cost := by
    simp [Held.heldCost, kept.cost.1.not_ge, kept.cost.2.not_ge]
  simp only [Column.linear, Option.elim_some] at taken
  simp [held?, Held.upperEnd?_rat, taken, cost, Column.linear]

/-- A row of moderate numbers is held as what counts of it. -/
theorem Row.held?_eq {row : Row ℚ Nat N} {count : Nat} (within : row.Within count)
    (takes : Held.TakesTerms (Held.exactTerms row.coefficients))
    (moderate : Held.IsModerate row.rhs) : row.held? count = some row.counted.linear := by
  -- Each sense has the right side as one end or as both.
  have ends : (∀ limit ∈ row.bounds.lower, Held.IsModerate limit) ∧
      ∀ limit ∈ row.bounds.upper, Held.IsModerate limit := by
    unfold Row.bounds
    cases row.sense <;> simp [moderate]
  have taken := Held.bounds?_eq_some ends.1 ends.2
  have same : Held.rowEnds row.sense (.finite row.rhs) =
      (row.bounds.lower.elim (.infinite true) .finite,
        row.bounds.upper.elim (.infinite false) .finite) := by
    unfold Held.rowEnds Row.bounds
    cases row.sense <;> rfl
  have terms := Held.terms?_eq_some_iff.2 ⟨within_iff.1 within, takes, Held.filterMap_counted? _⟩
  simp only [held?, Scalar.exact_rat, same, taken, terms]
  rfl

namespace Relaxation

variable {record : Relaxation ℚ Nat N} {state : Relaxation ℚ Nat N × Held ℚ}

/-- Small coefficients of different columns are taken. -/
theorem takesTerms_of_small {terms : List (Nat × ℚ)} (small : ∀ term ∈ terms, IsSmall term.2)
    (nodup : (terms.map Prod.fst).Nodup) : Held.TakesTerms (Held.exactTerms terms) where
  size := by
    rw [Held.exactTerms, List.forall_mem_map]
    exact fun term member => ⟨term.2, rfl, small term member⟩
  nodup := by simpa [Held.exactTerms, Function.comp_def] using nodup

namespace Follows

variable (follows : Follows state) (small : state.1.HasSmallData)
  (distinct : state.1.HasDistinctTerms)

include small in
theorem held?_column {column : Column ℚ N} (member : column ∈ state.1.columns) :
    column.held? = some ⟨.finite column.cost, column.linear.bounds⟩ := by
  obtain ⟨cost, lower, upper⟩ := small.columns column member
  exact Column.held?_eq
    ⟨cost.isModerate, lower.isModerate, fun limit given => (upper limit given).isModerate⟩

include follows small distinct

theorem held?_row {row : Row ℚ Nat N} (member : row ∈ state.1.rows) :
    row.held? state.1.columns.length = some row.counted.linear := by
  obtain ⟨rhs, terms⟩ := small.rows row member
  exact Row.held?_eq (follows.within row member)
    (takesTerms_of_small terms (distinct row member)) rhs.isModerate

/-- A record of small data is taken as a whole. -/
theorem allTaken : AllTaken state.1 where
  columns _ member :=
    Column.held?_isSome_iff.1 (Option.isSome_of_eq_some (held?_column small member))
  rows _ member :=
    (Row.held?_isSome_iff.1
      (Option.isSome_of_eq_some (follows.held?_row small distinct member))).2

/-- A solver that follows a record of small data holds what counts of it. -/
theorem holds : state.2.Holds state.1.counted.program where
  objective := by
    rw [follows.objective]
    rfl
  columns := by
    rw [follows.columns, List.filterMap_eq_map_iff_forall_eq_some.2 fun column member =>
      held?_column small member]
    simp [counted, program, Column.linear]
  rows := by
    rw [follows.whole (follows.allTaken small distinct).columns,
      List.filterMap_eq_map_iff_forall_eq_some.2 fun row member =>
        follows.held?_row small distinct member]
    simp [counted, program, Function.comp_def]

end Follows

variable [RowName N] {solver : Linear.Solver}

/-- A row that is asked for by pairs refers to each column once. -/
theorem perform_keeps_distinct (request : Request ℚ Nat N) (distinct : state.1.HasDistinctTerms) :
    Action.Ensures (request.perform (Held.backend solver)) state (fun _ => True)
      fun _ after => after.1.HasDistinctTerms := by
  refine (request.perform_served state).mono ?_
  intro _ after served
  cases served with
  | column column => exact distinct
  | row made =>
    intro row member
    rcases List.mem_append.1 member with before | new
    · exact distinct row before
    · -- Pairs become an association, of which some entries are left.
      have real := (makeRow_eq_ok.1 made).2.1
      obtain rfl := List.mem_singleton.1 new
      exact (Association.nodup_ofPairs _).sublist (fst_of_realCoefficients real)
  | solve answer => exact distinct

/-- What the requests of a session keep that are all served. -/
theorem performAll_keeps_distinct (objective : Objective) (timeLimit : Option ℚ)
    (requests : List (Request ℚ Nat N)) :
    (Request.performAll (Held.backend solver) requests).Ensures
      (Relaxation.empty objective, Held.empty objective timeLimit) (fun _ => True) fun _ state =>
        Follows state ∧ state.1.HasDistinctTerms := by
  refine Action.forM_ensures ?_ ⟨follows_empty objective timeLimit, nofun⟩
  intro request _ before both
  exact (perform_follows request both.1).and_of_value (perform_keeps_distinct request both.2)

/--
The answer to a program with small data is one to its record, without the coefficients that are too
small to count. Without columns it is that the program is solved, whatever the rows say.
-/
theorem answer_isTrueOf_record (truthful : ∀ program, (solver program).IsTrue program)
    (objective : Objective) (timeLimit : Option ℚ) (requests : List (Request ℚ Nat N)) :
    (Request.performAll (Held.backend solver) requests).Ensures
      (Relaxation.empty objective, Held.empty objective timeLimit) (fun _ => True) fun _ state =>
        state.1.HasSmallData →
        (solve (Held.backend solver)).Meets state
          (fun answer after => after.1.values = answer.values ∧
            (state.1.columns = [] → answer.status = .optimal ∧ answer.values = []) ∧
            (state.1.columns ≠ [] → answer.IsTrueOf state.1.counted ∨
              answer.status = .error ∧ solver state.1.counted.program = .unknown) ∧
            ((∀ row ∈ state.1.rows, ∀ term ∈ row.coefficients, Held.tiny < |term.2|) →
              state.1.counted = state.1))
          fun _ _ => False := by
  refine (performAll_keeps_distinct objective timeLimit requests).mono ?_
  intro _ state ⟨follows, distinct⟩ small
  -- The solver holds the program of what counts, and says the truth about that.
  have holds := follows.holds small distinct
  have count : state.1.columns.length = state.1.counted.program.columns.length :=
    (List.length_map _).symm
  refine Held.meets_solve.2 ⟨rfl, ?_, ?_, counted_eq_self⟩
  · intro none
    have empty : state.1.counted.program.columns = [] := by
      rw [program, counted, none, List.map_nil]
    refine ⟨holds.optimal_of_columns_eq_nil empty _ _, ?_⟩
    -- There is no column that could have a value.
    have held : state.2.columns = [] := by rw [holds.columns, empty, List.map_nil]
    simp [Held.answer, Held.judged, held]
  · intro filled
    have some : state.1.counted.program.columns ≠ [] := by
      rwa [program, counted, ne_eq, List.map_eq_nil_iff]
    rw [count]
    refine (holds.tellsTruth some (truthful _) _).imp ?_ And.symm
    exact LpAnswer.TellsTruth.isTrueOf

/-- The simplex method solves a program of one bounded column for what is recorded. -/
theorem answer_isTrueOf_bounded_column :
    let requests : List (Request ℚ Nat String) :=
      [.column 1 0 (some 2) none, .row [(0, 2)] (.text "<=") 3 none]
    let state := ((Request.performAll (Held.backend Linear.simplex) requests).run
      (Relaxation.empty .greatest, Held.empty .greatest none)).state
    let answered := (solve (Held.backend Linear.simplex)).run state
    state.1.HasSmallData ∧ ∃ answer, answered.result = .ok answer ∧ answer.status = .optimal ∧
      answer.IsTrueOf state.1.counted := by
  intro requests state answered
  have returns : ((Request.performAll (Held.backend Linear.simplex) requests).run
      (Relaxation.empty .greatest, Held.empty .greatest none)).result = .ok () := by decide +kernel
  have small : state.1.HasSmallData := by decide +kernel
  have filled : state.1.columns ≠ [] := by
    rw [← List.length_pos_iff]
    decide +kernel
  have solved : (answered.result.toOption.map LpAnswer.status) = some .optimal := by decide +kernel
  have met := (answer_isTrueOf_record Linear.simplex_isTrue .greatest none requests).of_ok
    returns small
  obtain ⟨answer, given, -, -, truth, -⟩ := (Action.meets_iff.1 met).resolve_right (by simp)
  have optimal : answer.status = .optimal := by
    rw [show answered.result = .ok answer from given] at solved
    exact Option.some.inj solved
  refine ⟨small, answer, given, optimal, (truth filled).resolve_right ?_⟩
  simp [optimal]

/-- A program of which only a row without coefficients is known is called solved at no point. -/
theorem rows_without_columns_are_ignored :
    let ended := ((Request.performAll (Held.backend Linear.simplex)
      [.row [] (.text ">=") 1 none]).run
        ((Relaxation.empty .least, Held.empty .least none) : Relaxation ℚ Nat String × Held ℚ))
    let answered := (solve (Held.backend Linear.simplex)).run ended.state
    ended.result = .ok () ∧ (answered.result.toOption.map LpAnswer.status) = some .optimal ∧
      answered.state.1.violations.toOption = some [1] := by
  decide +kernel

end Relaxation

end CuttingPlanes
