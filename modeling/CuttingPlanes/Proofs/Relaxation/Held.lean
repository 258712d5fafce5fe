import CuttingPlanes.Proofs.Linear.Certificate
import CuttingPlanes.Proofs.Relaxation.Program
import CuttingPlanes.Relaxation.Held

/-! The model that an exact solver holds of what it has been told, where nothing is refused. -/

namespace CuttingPlanes

namespace Held

/-- A number that does not count as infinite. -/
def IsModerate (q : ℚ) : Prop := -infinity < q ∧ q < infinity

instance (q : ℚ) : Decidable (IsModerate q) := inferInstanceAs (Decidable (_ ∧ _))

theorem isModerate_zero : IsModerate 0 := by decide +kernel

theorem isModerate_one : IsModerate 1 := by decide +kernel

/-- Bounds with moderate ends are taken as they are. -/
theorem bounds?_eq_some {bounds : Linear.Bounds} (low : ∀ limit ∈ bounds.lower, IsModerate limit)
    (high : ∀ limit ∈ bounds.upper, IsModerate limit) :
    bounds? (bounds.lower.elim (.infinite true) .finite)
      (bounds.upper.elim (.infinite false) .finite) = some bounds := by
  obtain ⟨lower, upper⟩ := bounds
  -- An end that is missing is beyond the limit that it is compared with.
  have least : Extended.related .less (.infinite true) (.finite infinity) = true := rfl
  have greatest : Extended.related .greater (.infinite false) (.finite (-infinity)) = true := rfl
  cases lower with
  | none =>
    cases upper with
    | none => simp [bounds?, least, greatest, Extended.rational?]
    | some upper =>
      have inside := high upper rfl
      simp [bounds?, least, Extended.rational?, inside.1, inside.2.not_ge]
  | some lower =>
    have inside := low lower rfl
    cases upper with
    | none => simp [bounds?, greatest, Extended.rational?, inside.2, inside.1.not_ge]
    | some upper =>
      have also := high upper rfl
      simp [bounds?, Extended.rational?, inside.2, inside.1.not_ge, also.1, also.2.not_ge]

/-- Terms with different columns and coefficients that count are taken as they are. -/
theorem terms?_eq_some {count : Nat} {terms : List (Nat × ℚ)}
    (known : ∀ term ∈ terms, term.1 < count)
    (counted : ∀ term ∈ terms, tiny < |term.2| ∧ |term.2| < greatestCoefficient)
    (nodup : (terms.map Prod.fst).Nodup) :
    terms? count (exactTerms terms) = some terms := by
  induction terms with
  | nil => rfl
  | cons term rest ih =>
    rw [List.map_cons, List.nodup_cons] at nodup
    rw [List.forall_mem_cons] at known counted
    have others := ih known.2 counted.2 nodup.2
    -- The size of a coefficient is compared, whatever its sign.
    have size : (if term.2 < 0 then -term.2 else term.2) = |term.2| := by
      rcases lt_or_ge term.2 0 with below | above
      · rw [if_pos below, abs_of_neg below]
      · rw [if_neg above.not_gt, abs_of_nonneg above]
    have fresh : term.1 ∉ (exactTerms rest).map Prod.fst := by
      simpa [exactTerms, Function.comp_def] using nodup.1
    rw [exactTerms, List.map_cons, ← exactTerms]
    simp [terms?, others, size, fresh, known.1, counted.1.1, counted.1.2]

end Held

variable {N : Type}

/-- A column that an exact solver takes as it is. -/
structure Column.IsKept (column : Column ℚ N) : Prop where
  cost : Held.IsModerate column.cost
  lower : Held.IsModerate column.lower
  upper : ∀ upper ∈ column.upper, Held.IsModerate upper

/-- A row that an exact solver takes as it is when it has been told of a count of columns. -/
structure Row.IsKept (count : Nat) (row : Row ℚ Nat N) : Prop where
  known : ∀ term ∈ row.coefficients, term.1 < count
  counted : ∀ term ∈ row.coefficients, Held.tiny < |term.2| ∧ |term.2| < Held.greatestCoefficient
  nodup : (row.coefficients.map Prod.fst).Nodup
  rhs : Held.IsModerate row.rhs

/-- A call that tells an exact solver nothing but what it takes as it is. -/
def Call.IsKept (before : List (Call ℚ Nat N)) : Call ℚ Nat N → Prop
  | .column added => added.IsKept
  | .row added => added.IsKept (columns before).length
  | .solve => True

/-- Calls all of which are kept, each after those before it. -/
def Call.AllKept (calls : List (Call ℚ Nat N)) : Prop :=
  ∀ before call, before ++ [call] <+: calls → call.IsKept before

/-- Solves in between do not matter for what is kept. -/
theorem Call.AllKept.of_filter_adds {calls : List (Call ℚ Nat N)}
    (kept : AllKept (calls.filter adds)) : AllKept calls := by
  intro before call within
  -- A call that adds something is among those that are left.
  have earlier : call.adds = true → before.filter adds ++ [call] <+: calls.filter adds := by
    intro adding
    have filtered := within.filter adds
    rwa [List.filter_append, List.filter_singleton, adding] at filtered
  cases call with
  | column added => exact kept (before.filter adds) (.column added) (earlier rfl)
  | row added =>
    have told := kept (before.filter adds) (.row added) (earlier rfl)
    simpa [IsKept] using told
  | solve => trivial

namespace Held

/-- A rational bound is handed on as it is. -/
theorem upperEnd?_rat (upper : Option ℚ) :
    upperEnd? upper = some (upper.elim (.infinite false) .finite) := by
  cases upper <;> rfl

/-- An exact solver never fails. -/
theorem failsOnly (solver : Linear.Solver) (allowed : Interrupt → Prop) (start : Held ℚ) :
    (backend solver : Backend (Held ℚ) ℚ Nat N).FailsOnly allowed start := by
  intro calls held _ call
  -- A call that is not taken is passed over in silence.
  cases call with
  | column column =>
    simp only [Backend.perform, backend, addColumn, upperEnd?_rat]
    split <;> simp
  | row row =>
    simp only [Backend.perform, backend, addRow, Action.ensures_bind, Action.ensures_get]
    split <;> simp
  | solve => simp [Backend.perform, Backend.ask, backend]

section Told

variable {column : Column ℚ N} {row : Row ℚ Nat N}

/-- A column that is kept is held with its own cost and bounds. -/
theorem addColumn_eq (kept : column.IsKept) :
    addColumn column = Action.modify fun held : Held ℚ =>
      { held with columns := held.columns ++ [⟨.finite column.cost, column.linear.bounds⟩] } := by
  -- Bounds and cost are moderate, and so are taken as they are.
  have low : ∀ limit ∈ column.linear.bounds.lower, IsModerate limit := by
    simpa [Column.linear] using kept.lower
  have taken := bounds?_eq_some low kept.upper
  have cost : heldCost (.finite column.cost) = .finite column.cost := by
    simp [heldCost, kept.cost.1.not_ge, kept.cost.2.not_ge]
  unfold addColumn
  rw [upperEnd?_rat]
  cases given : column.upper <;>
    simp_all [Column.linear]

/-- A row that is kept is held as the constraint that it stands for. -/
theorem addRow_run (held : Held ℚ) (kept : row.IsKept held.columns.length) :
    ((addRow row).run held).state = { held with rows := held.rows ++ [row.linear] } := by
  -- Each sense has the right side as one end or as both.
  have moderate : (∀ limit ∈ row.bounds.lower, IsModerate limit) ∧
      ∀ limit ∈ row.bounds.upper, IsModerate limit := by
    unfold Row.bounds
    cases row.sense <;> simp [kept.rhs]
  have taken := bounds?_eq_some moderate.1 moderate.2
  have ends : rowEnds row.sense (.finite row.rhs) =
      (row.bounds.lower.elim (.infinite true) .finite,
        row.bounds.upper.elim (.infinite false) .finite) := by
    unfold rowEnds Row.bounds
    cases row.sense <;> rfl
  have terms := terms?_eq_some kept.known kept.counted kept.nodup
  rw [addRow, Action.run_bind_ok (Action.run_get held)]
  simp [ends, taken, terms, Row.linear]

end Told

/-- A model that holds a program as it is. -/
structure Holds (held : Held ℚ) (program : Linear.Program) : Prop where
  objective : program.maximise = (held.objective == .greatest)
  columns : held.columns = program.columns.map fun column => ⟨.finite column.cost, column.bounds⟩
  rows : held.rows = program.rows

variable {solver : Linear.Solver} {held : Held ℚ} {calls : List (Call ℚ Nat N)}

/-- What has been told and kept is held. -/
theorem holds_of_reaches {timeLimit : Option ℚ}
    (reached : (backend solver).Reaches (empty .least timeLimit) calls held)
    (kept : Call.AllKept calls) : held.Holds (Call.program calls) := by
  induction reached with
  | start => exact ⟨rfl, rfl, rfl⟩
  | @step calls held call _ returned ih =>
    have before := ih fun earlier call within =>
      kept earlier call (within.trans (List.prefix_append _ _))
    have now : call.IsKept calls := kept calls call (List.prefix_refl _)
    cases call with
    | column column =>
      simp only [Backend.perform, backend, addColumn_eq now]
      exact ⟨before.objective, by simp [before.columns, Call.program, Column.linear],
        by simp [before.rows, Call.program]⟩
    | row row =>
      -- The model has as many columns as have been told.
      have count : held.columns.length = (Call.columns calls).length := by
        simp [before.columns, Call.program]
      have now : row.IsKept held.columns.length := by
        rw [count]
        exact now
      simp only [Backend.perform, backend, addRow_run held now]
      exact ⟨before.objective, by simp [before.columns, Call.program],
        by simp [before.rows, Call.program]⟩
    | solve =>
      -- A solve leaves the model as it is.
      let solving : Backend (Held ℚ) ℚ Nat N := backend solver
      have same : ((solving.perform calls .solve).run held).state = held := rfl
      rw [same]
      simpa [Call.program] using before

section Answers

variable {program : Linear.Program} (holds : held.Holds program)

include holds

/-- The program of a model is the one that it holds. -/
theorem Holds.program?_eq : held.program? = some program := by
  -- A finite cost settles a column with its own bounds.
  have settled : (program.columns.map fun column =>
      HeldColumn.mk (.finite column.cost) column.bounds).mapM
        (HeldColumn.settled? held.objective) = some program.columns := by
    induction program.columns with
    | nil => rfl
    | cons column rest ih => simp [HeldColumn.settled?, ih]
  simp [program?, ← holds.objective, holds.columns, holds.rows, settled]

/-- No cost of the model is infinite. -/
theorem Holds.hasInfiniteCost_eq : held.hasInfiniteCost = false := by
  simp [hasInfiniteCost, holds.columns, Extended.rational?]

/-- The cost of a point is the one that the program gives it. -/
theorem Holds.totalCost_eq (point : List ℚ) :
    held.totalCost program point = .finite (program.objective point) := by
  -- No column adds an infinite part, however many have been passed.
  have added : ∀ (columns : List Linear.Column) (point : List ℚ) (cost : ℚ),
      (List.zipWith HeldColumn.infiniteCost
        (columns.map fun column => HeldColumn.mk (.finite column.cost) column.bounds) point).foldl
          Extended.add (.finite cost) = .finite cost := by
    intro columns
    induction columns with
    | nil => simp
    | cons column rest ih =>
      intro point cost
      cases point with
      | nil => simp
      | cons value point => simp [HeldColumn.infiniteCost, Extended.add, ih]
  rw [totalCost, holds.columns, added]

/-- An answer about a program without columns is that it is solved. -/
theorem Holds.optimal_of_columns_eq_nil (none : program.columns = []) (columns rows : Nat) :
    (held.answer solver columns rows).status = .optimal := by
  simp [answer, judged, holds.columns, none, Verdict.status]

/-- What the solver finds is what the answer is made of. -/
theorem Holds.judged_eq (some : program.columns ≠ []) :
    held.judged solver = match solver program with
      | .optimal point duals =>
          (.optimal, Option.some (.finite (program.objective point), point, duals))
      | .infeasible => (.infeasible, none)
      | .unbounded => (.unbounded, none)
      | .unknown => (.other, none) := by
  have filled : held.columns.isEmpty = false := by simpa [holds.columns] using some
  unfold judged
  rw [filled, holds.program?_eq]
  -- Each finding turns into one verdict, as no cost is infinite.
  cases finding : solver program with
  | optimal point duals => simp [finding, holds.totalCost_eq]
  | infeasible => simp [finding, holds.hasInfiniteCost_eq]
  | unbounded => simp [finding]
  | unknown => simp [finding]

/-- An answer about a program with columns is true, unless nothing has been found. -/
theorem Holds.tellsTruth (some : program.columns ≠ [])
    (sound : (solver program).IsTrue program) (rows : Nat) :
    (held.answer solver program.columns.length rows).TellsTruth program ∨
      solver program = .unknown ∧
        (held.answer solver program.columns.length rows).status = .error := by
  simp only [answer, holds.judged_eq some]
  cases finding : solver program with
  | optimal point duals =>
    rw [finding] at sound
    -- A best point has a value for every column, so that none is cut off.
    have given : point.length = program.columns.length :=
      (Linear.Program.isFeasible_iff.1 sound.feasible).1
    have values : (point.map (Scalar.ofRat : ℚ → ℚ)).take program.columns.length = point := by
      rw [← given, List.take_of_length_le (List.length_map _).le]
      exact List.map_id point
    refine .inl ?_
    simp only [values]
    exact ⟨sound, rfl⟩
  | infeasible =>
    rw [finding] at sound
    exact .inl sound
  | unbounded =>
    rw [finding] at sound
    exact .inl sound
  | unknown => exact .inr ⟨rfl, rfl⟩

end Answers

/-- A model is answered with a cost only where it is answered well. -/
theorem optimal_of_objective {K : Type} [Scalar K] (held : Held K) (columns rows : Nat) :
    ∀ cost ∈ (held.answer solver columns rows).objective,
      (held.answer solver columns rows).status = .optimal := by
  intro cost given
  unfold answer judged at given ⊢
  by_cases empty : held.columns.isEmpty = true
  · simp [empty, Verdict.status]
  · rw [if_neg empty] at given ⊢
    -- Only a finding with a point comes with a cost.
    cases settled : held.program? with
    | none => simp [settled, LpAnswer.unsolved] at given
    | some program =>
      cases found : solver program with
      | optimal point duals => simp [found, Verdict.status]
      | infeasible => simp [settled, found, LpAnswer.unsolved] at given
      | unbounded => simp [settled, found, LpAnswer.unsolved] at given
      | unknown => simp [settled, found, LpAnswer.unsolved] at given

/-- A row leaves the columns of a model as they are. -/
theorem addRow_ensures (row : Row ℚ Nat N) (held : Held ℚ) :
    Action.Ensures (addRow row) held (fun _ => True)
      fun _ after => after.columns = held.columns := by
  simp only [addRow, Action.ensures_bind, Action.ensures_get]
  split <;> simp

/-- A model that has not been told of any column holds none. -/
theorem columns_eq_nil_of_reaches {timeLimit : Option ℚ} {calls : List (Call ℚ Nat N)}
    {held : Held ℚ} (reached : (backend solver).Reaches (empty .least timeLimit) calls held)
    (none : Call.columns calls = []) : held.columns = [] := by
  induction reached with
  | start => rfl
  | @step calls held call _ returned ih =>
    rw [Call.columns_append] at none
    obtain ⟨before, last⟩ := List.append_eq_nil_iff.1 none
    -- Nothing but a column that is told could have added one.
    cases call with
    | column column => cases last
    | row row => exact ((addRow_ensures row held).of_ok returned).trans (ih before)
    | solve => exact ih before

/-- A program without columns is answered with a cost of nothing, and others only if solved. -/
theorem answers_objective (solver : Linear.Solver) (timeLimit : Option ℚ)
    (asked : List (Call ℚ Nat N) → Prop) :
    (backend solver).Answers (empty .least timeLimit) asked fun calls answer =>
      (∀ cost ∈ answer.objective, answer.status = .optimal) ∧
        ((Call.program calls).columns = [] → answer.objective = some 0) := by
  intro calls held reached _
  simp only [Backend.ask, backend, Action.ensures_bind, Action.ensures_get, Action.ensures_pure]
  refine ⟨optimal_of_objective held _ _, fun none => ?_⟩
  have untold : Call.columns calls = [] := by simpa [Call.program] using none
  -- An empty model is answered without asking the solver.
  have bare := columns_eq_nil_of_reaches reached untold
  simp only [answer, judged, bare, List.isEmpty_nil, if_true]
  rfl

/-- The answers of a solver that finds what is true are true of what has been kept. -/
theorem answers_of_isTrue (sound : ∀ program, (solver program).IsTrue program)
    {asked : List (Call ℚ Nat N) → Prop} (kept : ∀ calls, asked calls → Call.AllKept calls)
    (timeLimit : Option ℚ) :
    (backend solver).Answers (empty .least timeLimit) asked fun calls answer =>
      answer.TellsTruthOfColumns (Call.program calls) ∨ (Call.program calls).columns ≠ [] ∧
        solver (Call.program calls) = .unknown ∧ answer.status = .error := by
  intro calls held reached posed
  -- The model holds the program that has been posed, and is asked about it.
  have holds := holds_of_reaches reached (kept _ posed).of_filter_adds
  have same : Call.program (calls.filter Call.adds) = Call.program calls := by simp [Call.program]
  have count : (Call.columns calls).length = (Call.program calls).columns.length := by
    simp [Call.program]
  simp only [Backend.ask, backend, Action.ensures_bind, Action.ensures_get, Action.ensures_pure,
    same, count]
  by_cases none : (Call.program calls).columns = []
  · refine .inl ?_
    rw [LpAnswer.TellsTruthOfColumns, if_pos none]
    exact holds.optimal_of_columns_eq_nil none _ _
  · rw [LpAnswer.TellsTruthOfColumns, if_neg none]
    exact (holds.tellsTruth none (sound _) _).imp_right fun failed => ⟨none, failed⟩

end Held

end CuttingPlanes
