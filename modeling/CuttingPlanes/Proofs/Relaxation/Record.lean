import CuttingPlanes.Proofs.Relaxation.Calls

/-! The record of a program keeps step with its backend. -/

namespace CuttingPlanes.Relaxation

variable {β K ι N : Type}

/-- The record holds what calls have added, and the backend has been reached by these calls. -/
structure Mirrors (backend : Backend β K ι N) (start : β) (calls : List (Call K ι N))
    (state : Relaxation K ι N × β) : Prop where
  columns : state.1.columns = Call.columns calls
  rows : state.1.rows = Call.rows calls
  reached : backend.Reaches start calls state.2

/-- A program without columns and rows has made no calls. -/
theorem Mirrors.empty (backend : Backend β K ι N) (start : β) (objective : Objective) :
    Mirrors backend start [] (Relaxation.empty objective, start) :=
  ⟨rfl, rfl, .start⟩

variable {backend : Backend β K ι N} {start : β} {calls : List (Call K ι N)}
  {state : Relaxation K ι N × β} {allowed : Interrupt → Prop}

/-- Naming a row changes the table of names alone. -/
theorem nameRow_ensures [RowName N] {name : Option N} {position : Nat}
    (named : ∀ text ∈ name, RowName.checkKey text = .ok ()) :
    Action.Ensures (nameRow name position) state allowed fun _ after =>
      ∃ names, after = ({ state.1 with names := names }, state.2) := by
  -- Only a name can be refused, and this one is not.
  cases name with
  | none => exact ⟨state.1.names, rfl⟩
  | some text =>
    simp only [nameRow, named text rfl, Action.ofExcept_ok, Action.ensures_bind,
      Action.ensures_pure, Action.ensures_modify]
    exact ⟨_, rfl⟩

/-- A solve keeps an answer to what has been added. -/
theorem Mirrors.solve (mirrors : Mirrors backend start calls state)
    (reliable : backend.FailsOnly allowed start) {asked : List (Call K ι N) → Prop}
    {promised : List (Call K ι N) → LpAnswer K → Prop}
    (answers : backend.Answers start asked promised) (posed : asked (calls.filter Call.adds)) :
    Action.Ensures (Relaxation.solve backend) state allowed fun answer after =>
      Mirrors backend start (calls ++ [.solve]) after ∧ after.1.last = some answer ∧
        promised (calls.filter Call.adds) answer := by
  have called := mirrors.reached.perform reliable .solve
  simp only [Backend.perform, Action.ensures_bind, Action.ensures_pure] at called
  -- The call is made to a reached state, and its answer is as promised.
  have both := called.and_of_value (answers calls state.2 mirrors.reached posed)
  simp only [Backend.ask, Action.ensures_bind] at both
  -- The record asks with its own counts, which are those of the calls.
  simp only [Relaxation.solve, Action.ensures_bind, Action.ensures_pure, Action.ensures_get,
    Action.ensures_modify, Action.ensures_onSecond, mirrors.columns, mirrors.rows]
  refine both.mono fun _ _ solved => solved.mono fun _ _ kept => kept.mono ?_
  rintro answer after ⟨reached, truth⟩
  exact ⟨⟨by simp, by simp, reached⟩, trivial, truth⟩

variable [Scalar K]

/-- A column is recorded and called for together. -/
theorem Mirrors.addColumn (mirrors : Mirrors backend start calls state)
    (reliable : backend.FailsOnly allowed start) {cost lower : K} {upper : Option K}
    {name : Option N} {column : Column K N} (made : makeColumn cost lower upper name = .ok column) :
    Action.Ensures (Relaxation.addColumn backend cost lower upper name) state allowed
      fun position after => position = (Call.columns calls).length ∧
        Mirrors backend start (calls ++ [.column column]) after := by
  have called := mirrors.reached.perform reliable (.column column)
  simp only [Relaxation.addColumn, made, Action.ofExcept_ok, Action.ensures_bind,
    Action.ensures_pure, Action.ensures_get, Action.ensures_modify, Action.ensures_onSecond]
  -- The position is the count of columns before the new one.
  refine called.mono fun _ after reached => ⟨by rw [mirrors.columns], ?_⟩
  exact ⟨by simp [mirrors.columns], by simp [mirrors.rows], reached⟩

variable [Ordinal ι]

/-- A row is recorded and called for together. -/
theorem Mirrors.addRow [RowName N] (mirrors : Mirrors backend start calls state)
    (reliable : backend.FailsOnly allowed start) {row added : Row K ι N}
    (made : makeRow (Call.columns calls).length row = .ok added)
    (named : ∀ name ∈ added.name, RowName.checkKey name = .ok ()) :
    Action.Ensures (Relaxation.addRow backend row) state allowed
      fun _ after => Mirrors backend start (calls ++ [.row added]) after := by
  have called := mirrors.reached.perform reliable (.row added)
  simp only [Relaxation.addRow, mirrors.columns, made, Action.ofExcept_ok, Action.ensures_bind,
    Action.ensures_pure, Action.ensures_get, Action.ensures_modify, Action.ensures_onSecond]
  -- Between the record and the call only a name is noted.
  refine (nameRow_ensures named).mono fun _ middle unnamed => ?_
  obtain ⟨names, rfl⟩ := unnamed
  refine called.mono fun _ after reached => ?_
  exact ⟨by simp, by simp [mirrors.rows], reached⟩

end CuttingPlanes.Relaxation
