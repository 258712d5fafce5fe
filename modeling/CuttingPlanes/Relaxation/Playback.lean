import CuttingPlanes.Relaxation.Basic

/-! A backend that plays back answers given beforehand. -/

namespace CuttingPlanes

/-- A call of the backend; a column or a row comes with how many there are. -/
inductive PlaybackCall where
  | build
  | column (count : Nat)
  | row (count : Nat)
  | before
  | solve
  | after

/-- What is played back. -/
structure PlaybackPlan (K : Type) where
  /-- The answers of solves, the last of which comes again and again. -/
  answers : List (Except Fault (LpAnswer K))
  /-- Whether the calls around a solve are noted. -/
  hooks : Bool
  /-- The answer that is kept in place of every other one. -/
  replacement : Option (LpAnswer K)
  columnFault : Option Fault
  rowFault : Option Fault

/-- What has been called. -/
structure Playback where
  solves : Nat
  columns : Nat
  rows : Nat
  calls : List PlaybackCall

namespace Playback

variable {K ι N : Type} [Scalar K]

/-- The name under which a program with this backend is shown. -/
def title : String := "ScriptedRowModel"

/-- A backend that has just been made. -/
def fresh : Playback := ⟨0, 0, 0, [.build]⟩

/-- Notes a call. -/
def note (call : PlaybackCall) : Action Playback Unit :=
  Action.modify fun playback => { playback with calls := playback.calls ++ [call] }

/-- Fails where a fault is planned. -/
def failing (fault : Option Fault) : Action Playback Unit :=
  match fault with
  | some fault => Action.raise fault
  | none => pure ()

/-- The next answer. -/
def next (plan : PlaybackPlan K) : Action Playback (LpAnswer K) := do
  note .solve
  let made := (← Action.get).solves
  Action.modify fun playback => { playback with solves := made + 1 }
  match (plan.answers[made]?).or plan.answers.getLast? with
  | some answer => Action.ofExcept answer
  | none => return LpAnswer.unsolved

/-- The backend of a plan. -/
def backend (plan : PlaybackPlan K) : Backend Playback K ι N where
  addColumn _ := do
    Action.modify fun playback => { playback with columns := playback.columns + 1 }
    note (.column (← Action.get).columns)
    failing plan.columnFault
  addRow _ := do
    Action.modify fun playback => { playback with rows := playback.rows + 1 }
    note (.row (← Action.get).rows)
    failing plan.rowFault
  before := if plan.hooks then note .before else pure ()
  solve _ _ := next plan
  after answer := do
    if plan.hooks then note .after
    return plan.replacement.getD answer

end Playback

end CuttingPlanes
