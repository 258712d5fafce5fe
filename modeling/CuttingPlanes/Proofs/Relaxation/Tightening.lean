import CuttingPlanes.Proofs.Linear.Certificate
import CuttingPlanes.Proofs.Relaxation.Judgement
import CuttingPlanes.Proofs.Relaxation.Points
import CuttingPlanes.Proofs.Relaxation.Taken

/-! More rows leave fewer points to a solver, and so its answers never get better. -/

namespace CuttingPlanes

namespace Objective

variable {objective : Objective}

theorem Prefers.add {cost other : ℚ} (prefers : objective.Prefers cost other) (part : ℚ) :
    objective.Prefers (cost + part) (other + part) := by
  cases objective with
  | least => exact add_le_add_left prefers part
  | greatest => exact add_le_add_left prefers part

/-- A cost that is the same as another one, or finite and no worse than a finite one. -/
def IsNoWorse (objective : Objective) (cost other : Extended) : Prop :=
  cost = other ∨ ∃ q r, cost = .finite q ∧ other = .finite r ∧ objective.Prefers q r

/-- The same part of a cost changes nothing in how two costs stand. -/
theorem IsNoWorse.add {cost other : Extended} (noWorse : objective.IsNoWorse cost other)
    (part : Extended) : objective.IsNoWorse (cost.add part) (other.add part) := by
  rcases noWorse with rfl | ⟨q, r, rfl, rfl, prefers⟩
  · exact .inl rfl
  · cases part with
    | finite p => exact .inr ⟨q + p, r + p, rfl, rfl, prefers.add p⟩
    | infinite negative => exact .inl rfl
    | undefined => exact .inl rfl

theorem IsNoWorse.foldl {cost other : Extended} (noWorse : objective.IsNoWorse cost other)
    (parts : List Extended) :
    objective.IsNoWorse (parts.foldl Extended.add cost) (parts.foldl Extended.add other) := by
  induction parts generalizing cost other with
  | nil => exact noWorse
  | cons part rest ih => exact ih (noWorse.add part)

end Objective

/-- A point keeps fewer rows when it keeps more. -/
theorem Linear.Program.isFeasible_of_subset {program : Linear.Program} {rows : List Linear.Row}
    (subset : program.rows ⊆ rows) {point : List ℚ}
    (feasible : Linear.Program.isFeasible { program with rows := rows } point = true) :
    program.isFeasible point = true := by
  obtain ⟨count, columns, kept⟩ := Linear.Program.isFeasible_iff.1 feasible
  exact Linear.Program.isFeasible_iff.2
    ⟨count, columns, fun row member => kept row (subset member)⟩

namespace Held

variable {K : Type} {held after : Held K} {solver : Linear.Solver} {program : Linear.Program}

/-- Values within the bounds of a settled column have the same infinite cost. -/
theorem infiniteCost_eq {objective : Objective} {column : HeldColumn} {settled : Linear.Column}
    (made : HeldColumn.settled? objective column = some settled) {x y : ℚ}
    (left : settled.bounds.holds x = true) (right : settled.bounds.holds y = true) :
    HeldColumn.infiniteCost column x = HeldColumn.infiniteCost column y := by
  unfold HeldColumn.infiniteCost
  cases cost : column.cost with
  | finite _ => rfl
  | undefined => rfl
  | infinite negative =>
    -- An infinite cost fixes the column, whichever its end is.
    have fixed : ∃ fixed, settled.bounds = ⟨some fixed, some fixed⟩ := by
      simp only [HeldColumn.settled?, cost] at made
      split at made
      · obtain ⟨fixed, -, same⟩ := Option.bind_eq_some_iff.1 made
        cases same
        exact ⟨fixed, rfl⟩
      · obtain ⟨fixed, -, same⟩ := Option.bind_eq_some_iff.1 made
        cases same
        exact ⟨fixed, rfl⟩
    obtain ⟨fixed, bounds⟩ := fixed
    rw [bounds, Linear.Bounds.holds_iff] at left right
    have same : x = y :=
      (le_antisymm (left.2 fixed rfl) (left.1 fixed rfl)).trans
        (le_antisymm (right.1 fixed rfl) (right.2 fixed rfl))
    rw [same]

/-- Feasible points have the same infinite costs, column by column. -/
theorem zipWith_infiniteCost_eq {objective : Objective} {columns : List HeldColumn}
    {settled : List Linear.Column}
    (made : columns.mapM (HeldColumn.settled? objective) = some settled) {point other : List ℚ}
    (left : List.Forall₂ (fun column value => (Linear.Column.bounds column).holds value = true)
      settled point)
    (right : List.Forall₂ (fun column value => (Linear.Column.bounds column).holds value = true)
      settled other) :
    List.zipWith HeldColumn.infiniteCost columns point =
      List.zipWith HeldColumn.infiniteCost columns other := by
  -- Columns, settled columns and the values of both points are passed together.
  induction columns generalizing settled point other with
  | nil => rw [List.zipWith_nil_left, List.zipWith_nil_left]
  | cons column rest ih =>
    simp only [List.mapM_cons, Option.bind_eq_bind, Option.bind_eq_some_iff] at made
    obtain ⟨first, one, others, rests, same⟩ := made
    cases same
    cases left with
    | cons x left =>
      cases right with
      | cons y right =>
        rw [List.zipWith_cons_cons, List.zipWith_cons_cons, infiniteCost_eq one x y,
          ih rests left right]

/-- A program is made of the settled columns and of the rows as they are. -/
theorem program?_eq_some_iff :
    held.program? = some program ↔
      held.columns.mapM (HeldColumn.settled? held.objective) = some program.columns ∧
        program.maximise = (held.objective == .greatest) ∧ program.rows = held.rows := by
  simp only [program?, Option.bind_eq_bind, Option.bind_eq_some_iff]
  constructor
  · rintro ⟨columns, made, same⟩
    cases same
    exact ⟨made, rfl, rfl⟩
  · rintro ⟨made, sense, rows⟩
    refine ⟨program.columns, made, ?_⟩
    rw [← sense, ← rows]
    rfl

/-- The same model with more rows behind those that it had. -/
structure Extends (held after : Held K) : Prop where
  objective : after.objective = held.objective
  columns : after.columns = held.columns
  rows : held.rows <+: after.rows

namespace Extends

theorem refl (held : Held K) : held.Extends held := ⟨rfl, rfl, List.prefix_rfl⟩

theorem trans {last : Held K} (first : held.Extends after) (second : after.Extends last) :
    held.Extends last :=
  ⟨second.objective.trans first.objective, second.columns.trans first.columns,
    first.rows.trans second.rows⟩

theorem withRows (extended : held.Extends after) (added : List Linear.Row) :
    held.Extends (after.withRows added) :=
  ⟨extended.objective, extended.columns, extended.rows.trans (List.prefix_append _ _)⟩

variable (extended : held.Extends after)

include extended

/-- Only the rows of the program change. -/
theorem program?_eq (settled : held.program? = some program) :
    after.program? = some { program with rows := after.rows } := by
  obtain ⟨made, sense, -⟩ := program?_eq_some_iff.1 settled
  rw [program?_eq_some_iff, extended.columns, extended.objective]
  exact ⟨made, sense, rfl⟩

/-- A point of the program with more rows is one of the program. -/
theorem isFeasible_of (settled : held.program? = some program) {point : List ℚ}
    (feasible : Linear.Program.isFeasible { program with rows := after.rows } point = true) :
    program.isFeasible point = true := by
  refine Linear.Program.isFeasible_of_subset ?_ feasible
  rw [(program?_eq_some_iff.1 settled).2.2]
  exact extended.rows.subset

theorem filled (columns : held.columns ≠ []) : after.columns ≠ [] := by
  rwa [extended.columns]

variable (truthful : ∀ program, (solver program).IsTrue program)

include truthful

/-- More rows make the best cost no better. -/
theorem isNoWorse (settled : held.program? = some program) {point duals other others : List ℚ}
    (found : solver program = .optimal point duals)
    (solved : solver { program with rows := after.rows } = .optimal other others) :
    held.objective.IsNoWorse (held.totalCost program point)
      (after.totalCost { program with rows := after.rows } other) := by
  have best := truthful program
  have later := truthful { program with rows := after.rows }
  rw [found] at best
  rw [solved] at later
  obtain ⟨made, sense, -⟩ := program?_eq_some_iff.1 settled
  have feasible := extended.isFeasible_of settled later.feasible
  have prefers : held.objective.Prefers (program.objective point) (program.objective other) := by
    have least := best.least other feasible
    rwa [Linear.dot_minimised program other, Linear.dot_minimised_le_iff sense] at least
  -- The infinite parts of both costs are the same.
  unfold totalCost
  rw [extended.columns, zipWith_infiniteCost_eq made
    (Linear.Program.forall₂_holds_columns best.feasible)
    (Linear.Program.forall₂_holds_columns feasible)]
  exact Objective.IsNoWorse.foldl (.inr ⟨_, _, rfl, rfl, prefers⟩) _

end Extends

end Held

variable {K ι N : Type} [Scalar K]

/-- The second of two objectives is one of a cost that is no better than that of the first. -/
def Objective.NeverImproves (objective : Objective) (first second : Option K) : Prop :=
  ∃ cost other : Extended, first = Scalar.ofExtended cost ∧ second = Scalar.ofExtended other ∧
    objective.IsNoWorse cost other

namespace Held.Extends

variable {held after : Held K} {solver : Linear.Solver} (extended : held.Extends after)
  (truthful : ∀ program, (solver program).IsTrue program) (columns : held.columns ≠ [])
  (first second earlier later : Nat)

include extended truthful columns

/-- Where both models are solved, the objective is not improved by more rows. -/
theorem neverImproves (optimal : (held.answer solver first earlier).status = .optimal)
    (also : (after.answer solver second later).status = .optimal) :
    held.objective.NeverImproves (held.answer solver first earlier).objective
      (after.answer solver second later).objective := by
  have before := judges solver columns
  have behind := judges solver (extended.filled columns)
  rw [← status_answer first earlier, optimal] at before
  rw [← status_answer second later, also] at behind
  cases before with
  | @optimal program point duals settled found =>
  cases behind with
  | optimal known solved =>
  cases (extended.program?_eq settled).symm.trans known
  rw [answer_of_optimal columns settled found,
    answer_of_optimal (extended.filled columns) known solved]
  exact ⟨_, _, rfl, rfl, extended.isNoWorse truthful settled found solved⟩

end Held.Extends

variable [Ordinal ι] [RowName N] (solver : Linear.Solver) {held : Held K}

end CuttingPlanes
