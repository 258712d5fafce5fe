import CuttingPlanes.Proofs.Relaxation.Request
import CuttingPlanes.Relaxation.Held

/-! What the answer of a solver says about the model that it holds. -/

namespace CuttingPlanes

/-- What is kept of every member is what all of them are turned into. -/
theorem mapM_eq_some_filterMap {α β : Type} {keep : α → Option β} {items : List α}
    (kept : ∀ item ∈ items, (keep item).isSome = true) :
    items.mapM keep = some (items.filterMap keep) := by
  induction items with
  | nil => rfl
  | cons item rest ih =>
    rw [List.forall_mem_cons] at kept
    obtain ⟨value, made⟩ := Option.isSome_iff_exists.1 kept.1
    simp [made, ih kept.2]

/-- Two steps for each member may be made one after the other for all of them. -/
theorem mapM_bind_of_mapM {α β γ : Type} {first : α → Option β} {second : β → Option γ}
    {items : List α} {values : List β} (made : items.mapM first = some values) :
    (items.mapM fun item => (first item).bind second) = values.mapM second := by
  induction items generalizing values with
  | nil =>
    cases made
    rfl
  | cons item rest ih =>
    -- The first member has been made, and so have the others.
    rw [List.mapM_cons, Option.bind_eq_bind, Option.bind_eq_some_iff] at made
    obtain ⟨value, one, made⟩ := made
    rw [Option.bind_eq_bind, Option.bind_eq_some_iff] at made
    obtain ⟨others, rests, made⟩ := made
    cases made
    simp only [List.mapM_cons, one, Option.bind_some, ih rests]

namespace Held

variable {K : Type} {solver : Linear.Solver} {held : Held K}

/-- What is found about a model with columns, one case for each thing that can be found. -/
theorem judged_of_filled (filled : held.columns ≠ []) :
    held.judged solver = match held.program? with
      | none => (.other, none)
      | some program =>
          match solver program with
          | .optimal point duals => (.optimal, some (held.totalCost program point, point, duals))
          | .infeasible => (if held.hasInfiniteCost then .other else .infeasible, none)
          | .unbounded => (.unbounded, none)
          | .unknown => (.other, none) := by
  have some : held.columns.isEmpty = false := by simpa using filled
  rw [judged, some]
  rfl

/-- Where no cost is infinite, every column can be settled. -/
theorem program?_isSome_of_finite (finite : held.hasInfiniteCost = false) :
    held.program?.isSome = true := by
  have each : ∀ column ∈ held.columns,
      (HeldColumn.settled? held.objective column).isSome = true := by
    intro column member
    have known := List.any_eq_false.1 finite column member
    unfold HeldColumn.settled?
    cases cost : column.cost with
    | finite _ => rfl
    | infinite _ => simp [cost, Extended.rational?] at known
    | undefined => simp [cost, Extended.rational?] at known
  simp [program?, mapM_eq_some_filterMap each]

/-- How a model with columns is judged, with what each status comes from. -/
inductive Judged (solver : Linear.Solver) (held : Held K) : LpStatus → Prop
  | optimal {program : Linear.Program} {point duals : List Rat}
      (settled : held.program? = some program) (found : solver program = .optimal point duals) :
      Judged solver held .optimal
  | infeasible {program : Linear.Program} (settled : held.program? = some program)
      (found : solver program = .infeasible) (finite : held.hasInfiniteCost = false) :
      Judged solver held .infeasible
  | unbounded {program : Linear.Program} (settled : held.program? = some program)
      (found : solver program = .unbounded) : Judged solver held .unbounded
  /-- Nothing has been found, or a cost that is no number stands in the way. -/
  | silent (cause : held.hasInfiniteCost = true ∨
      ∃ program, held.program? = some program ∧ solver program = .unknown) :
      Judged solver held .error

theorem judges (solver : Linear.Solver) (filled : held.columns ≠ []) :
    held.Judged solver (held.judged solver).1.status := by
  rw [judged_of_filled filled]
  cases settled : held.program? with
  | none =>
    -- A column that cannot be settled has an infinite cost.
    refine .silent (.inl ?_)
    rw [← Bool.not_eq_false]
    intro finite
    simpa [settled] using program?_isSome_of_finite finite
  | some program =>
    simp only
    cases found : solver program with
    | optimal point duals => exact .optimal settled found
    | infeasible =>
      cases finite : held.hasInfiniteCost with
      | true => exact .silent (.inl finite)
      | false => exact .infeasible settled found finite
    | unbounded => exact .unbounded settled found
    | unknown => exact .silent (.inr ⟨program, settled, found⟩)

variable [Scalar K]

/-- The status of an answer is that of the verdict, for any counts of columns and rows. -/
theorem status_answer (columns rows : Nat) :
    (held.answer solver columns rows).status = (held.judged solver).1.status := by
  rcases judged : held.judged solver with ⟨verdict, none | ⟨cost, point, duals⟩⟩
  · simp [answer, judged]
  · simp [answer, judged]

/-- A solved model is answered with the point and the duals that the solver has found. -/
theorem answer_of_optimal (filled : held.columns ≠ []) {program : Linear.Program}
    {point duals : List Rat} (settled : held.program? = some program)
    (found : solver program = .optimal point duals) (columns rows : Nat) :
    held.answer solver columns rows =
      { (LpAnswer.unsolved : LpAnswer K) with
        status := .optimal
        objective := Scalar.ofExtended (held.totalCost program point)
        values := (point.map Scalar.ofRat).take columns
        duals := (duals.map Scalar.ofRat).take rows
        rowCount := rows } := by
  simp only [answer, judged_of_filled filled, settled, found]
  rfl

/-- A solve asks about the model as it stands. -/
theorem meets_solve {ι N : Type} [Ordinal ι] [RowName N] {state : Relaxation K ι N × Held K}
    {given : LpAnswer K → Relaxation K ι N × Held K → Prop}
    {failed : Interrupt → Relaxation K ι N × Held K → Prop} :
    Action.Meets (Relaxation.solve (backend solver)) state given failed ↔
      given (state.2.answer solver state.1.columns.length state.1.rows.length)
        ({ state.1 with
            last := some (state.2.answer solver state.1.columns.length state.1.rows.length) },
          state.2) := by
  rw [Relaxation.meets_solve]
  exact Iff.rfl

end Held

end CuttingPlanes
