import CuttingPlanes.Proofs.Association
import CuttingPlanes.Proofs.Datum.Key
import CuttingPlanes.Proofs.Relaxation.Request

/-! The names of recorded rows: the table of names finds exactly these. -/

namespace CuttingPlanes

/-- Names whose equality can be relied on among those that can be keys. -/
class LawfulRowName (N : Type) [RowName N] : Prop where
  /-- What is equal to a name that can be a key can be one too. -/
  usable {left right : N} : RowName.same left right = true → RowName.checkKey right = .ok () →
    RowName.checkKey left = .ok ()
  trans {first second third : N} : RowName.checkKey second = .ok () →
    RowName.checkKey third = .ok () → RowName.same first second = true →
      RowName.same second third = true → RowName.same first third = true

instance : LawfulRowName String where
  usable _ _ := rfl
  trans := by
    intro first second third _ _ left right
    simp only [RowName.same, beq_iff_eq] at left right ⊢
    exact left.trans right

instance : LawfulRowName Datum where
  usable := by
    intro left right same usable
    -- Values with the same identity can both be keys.
    have identity := (Datum.same_iff usable).1 same
    exact Datum.checkKey_eq_ok_iff.2 (identity ▸ Datum.checkKey_eq_ok_iff.1 usable)
  trans := by
    intro first second third usable also left right
    have identity := ((Datum.same_iff usable).1 left).trans ((Datum.same_iff also).1 right)
    exact (Datum.same_iff also).2 identity

namespace Relaxation

variable {β K ι N : Type} [RowName N]

/-- Whether a recorded row has a name. -/
def isNamed (record : Relaxation K ι N) (name : N) : Bool :=
  record.rows.any fun row => row.name.any fun own => RowName.same own name

/-- The table of names finds the names of the recorded rows, as far as these can be keys. -/
structure Indexed (record : Relaxation K ι N) : Prop where
  usable : ∀ entry ∈ record.names, RowName.checkKey entry.1 = .ok ()
  holds : ∀ name, RowName.checkKey name = .ok () →
    Association.holds name record.names = record.isNamed name

theorem Indexed.empty (objective : Objective) :
    (Relaxation.empty objective : Relaxation K ι N).Indexed :=
  ⟨nofun, fun _ _ => rfl⟩

variable {record : Relaxation K ι N} {row : Row K ι N}

/-- A name that can be a key is told to be that of a row exactly when it is. -/
theorem Indexed.hasRow_eq (indexed : record.Indexed) {name : N}
    (usable : RowName.checkKey name = .ok ()) :
    record.hasRow name = .ok (record.isNamed name) := by
  rw [hasRow, usable, ← indexed.holds name usable]
  rfl

theorem isNamed_withUnnamed (name : N) :
    (record.withUnnamed row).isNamed name =
      (record.isNamed name || row.name.any fun own => RowName.same own name) := by
  rw [isNamed, withUnnamed, List.any_append, List.any_cons, List.any_nil, Bool.or_false, isNamed]

variable [LawfulRowName N]

/-- A row whose name cannot be a key is not found by any name. -/
theorem Indexed.withUnnamed (indexed : record.Indexed) {fault : Fault}
    (refused : checkName row.name = .error fault) : (record.withUnnamed row).Indexed where
  usable := indexed.usable
  holds := by
    intro name usable
    rw [isNamed_withUnnamed]
    -- A name that could be looked for would make that of the row a key.
    have none : (row.name.any fun own => RowName.same own name) = false := by
      unfold checkName at refused
      cases given : row.name with
      | none => rfl
      | some own =>
        rw [Option.any_some, ← Bool.not_eq_true]
        intro same
        simp only [given, LawfulRowName.usable same usable] at refused
        cases refused
    rw [none, Bool.or_false]
    exact indexed.holds name usable

/-- A row whose name can be a key is found by it. -/
theorem Indexed.withRow (indexed : record.Indexed) {checked : Unit}
    (passed : checkName row.name = .ok checked) : (record.withRow row).Indexed := by
  unfold checkName at passed
  cases given : row.name with
  | none =>
    refine ⟨by simpa [Relaxation.withRow, given] using indexed.usable, fun name usable => ?_⟩
    -- Without a name the table stays as it is.
    have same : (record.withRow row).isNamed name = (record.withUnnamed row).isNamed name := rfl
    rw [same, isNamed_withUnnamed, given, Option.any_none, Bool.or_false]
    simpa [Relaxation.withRow, given] using indexed.holds name usable
  | some own =>
    simp only [given] at passed
    refine ⟨fun entry member => ?_, fun name usable => ?_⟩
    · simp only [Relaxation.withRow, given] at member
      rcases Association.fst_of_mem_insert member with new | known
      · exact new ▸ passed
      · obtain ⟨before, known, old⟩ := List.mem_map.1 known
        exact old ▸ indexed.usable before known
    · have same : (record.withRow row).isNamed name = (record.withUnnamed row).isNamed name := rfl
      rw [same, isNamed_withUnnamed, given, Option.any_some, ← indexed.holds name usable]
      simp only [Relaxation.withRow, given]
      refine Association.holds_insert ?_
      intro entry _ left right
      exact LawfulRowName.trans passed usable left right

variable [Scalar K] [Ordinal ι]

/-- Whether a request is served or refused, the names of the rows are those that are found. -/
theorem perform_keeps_indexed (backend : Backend β K ι N) (request : Request K ι N)
    (state : Relaxation K ι N × β) (indexed : state.1.Indexed) :
    (request.perform backend).Meets state (fun _ after => after.1.Indexed)
      fun _ after => after.1.Indexed := by
  cases request with
  | column cost lower upper name =>
    rw [Request.perform, Action.meets_bind, meets_addColumn]
    -- A column has nothing to do with the names of rows.
    split
    · exact indexed
    · exact Action.meets_of_forall (fun _ _ => ⟨indexed.usable, indexed.holds⟩)
        fun _ _ => ⟨indexed.usable, indexed.holds⟩
  | row pairs sense rhs name =>
    rw [Request.perform, Action.meets_bind, meets_addStatedRow]
    split
    · exact indexed
    · rw [meets_addRow]
      split
      · exact indexed
      · split
        · exact indexed.withUnnamed ‹_›
        · exact Action.meets_of_forall (fun _ _ => indexed.withRow ‹_›)
            fun _ _ => indexed.withRow ‹_›
  | solve =>
    rw [Request.perform, Action.meets_bind, meets_solve]
    exact Action.meets_of_forall (fun _ _ => ⟨indexed.usable, indexed.holds⟩)
      fun _ _ => ⟨indexed.usable, indexed.holds⟩

end Relaxation

end CuttingPlanes
