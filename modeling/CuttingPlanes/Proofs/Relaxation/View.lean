import CuttingPlanes.Proofs.Relaxation.Calls
import CuttingPlanes.Proofs.View

/-! Programs over a backend that, seen through a view of its state, does what another one does. -/

namespace CuttingPlanes

variable {α β K ι N : Type} {view : α → β}

/-- A backend shows another one when all its calls do. -/
structure Backend.Shows (view : α → β) (shown : Backend α K ι N) (backend : Backend β K ι N) :
    Prop where
  addColumn column : Action.Shows view Eq (shown.addColumn column) (backend.addColumn column)
  addRow row : Action.Shows view Eq (shown.addRow row) (backend.addRow row)
  before : Action.Shows view Eq shown.before backend.before
  solve columns rows : Action.Shows view Eq (shown.solve columns rows) (backend.solve columns rows)
  after answer : Action.Shows view Eq (shown.after answer) (backend.after answer)

/-- What a backend does is not changed by listening to it. -/
theorem Backend.shows_listened (backend : Backend β K ι N) :
    backend.listened.Shows Prod.snd backend where
  addColumn column := by
    -- Hearing comes last and is not seen in the state of the backend.
    rw [← bind_pure (backend.addColumn column)]
    exact (Action.shows_snd _).andThen fun _ => Action.shows_unseen fun _ => rfl
  addRow row := by
    rw [← bind_pure (backend.addRow row)]
    exact (Action.shows_snd _).andThen fun _ => Action.shows_unseen fun _ => rfl
  before := Action.shows_snd backend.before
  solve columns rows := Action.shows_snd (backend.solve columns rows)
  after answer := by
    have silent : backend.after answer =
        backend.after answer >>= fun answer => pure () >>= fun _ => pure answer := by simp
    rw [silent]
    refine (Action.shows_snd _).andThen fun _ => ?_
    exact Action.Shows.andThen (Action.shows_unseen fun _ => by rfl) fun _ => Action.shows_pure rfl

namespace Relaxation

variable {shown : Backend α K ι N} {backend : Backend β K ι N}

/-- The record is a part that the view leaves alone. -/
theorem shows_solve (shows : shown.Shows view backend) :
    Action.Shows (Prod.map id view) Eq (solve shown) (solve backend) := by
  refine shows.before.onSecond.andThen fun _ => Action.shows_get fun state => ?_
  -- The counts of columns and rows come from the record, which is the same.
  refine (shows.solve _ _).onSecond.andThen fun answer => ?_
  refine (shows.after answer).onSecond.andThen fun answer => ?_
  exact Action.Shows.andThen (Action.shows_modify fun _ => by rfl) fun _ => Action.shows_pure rfl

variable [Scalar K]

theorem shows_addColumn (shows : shown.Shows view backend) (cost lower : K) (upper : Option K)
    (name : Option N) :
    Action.Shows (Prod.map id view) Eq (addColumn shown cost lower upper name)
      (addColumn backend cost lower upper name) := by
  -- The column is refused by both or made by both.
  refine (Action.shows_ofExcept _).andThen fun column => Action.shows_get fun state => ?_
  refine Action.Shows.andThen (Action.shows_modify fun _ => by rfl) fun _ => ?_
  exact (shows.addColumn column).onSecond.andThen fun _ => Action.shows_pure rfl

variable [Ordinal ι] [RowName N]

omit [Scalar K] [Ordinal ι] in
theorem shows_nameRow (name : Option N) (position : Nat) :
    Action.Shows (Prod.map id view) Eq
      (nameRow name position : Action (Relaxation K ι N × α) Unit)
      (nameRow name position) := by
  -- Names are noted in the record alone.
  cases name with
  | none => exact Action.shows_pure rfl
  | some name =>
    exact (Action.shows_ofExcept _).andThen fun _ => Action.shows_modify fun _ => rfl

theorem shows_addRow (shows : shown.Shows view backend) (row : Row K ι N) :
    Action.Shows (Prod.map id view) Eq (addRow shown row) (addRow backend row) := by
  refine Action.shows_get fun state => (Action.shows_ofExcept _).andThen fun row => ?_
  refine Action.shows_get fun state => ?_
  refine Action.Shows.andThen (Action.shows_modify fun _ => by rfl) fun _ => ?_
  -- A name that is refused stops both ahead of the call.
  refine (shows_nameRow row.name _).andThen fun _ => ?_
  exact (shows.addRow row).onSecond.andThen fun _ => Action.shows_pure rfl

end Relaxation

end CuttingPlanes
