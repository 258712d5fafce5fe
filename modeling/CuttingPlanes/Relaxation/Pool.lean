import CuttingPlanes.Loop.Bare
import CuttingPlanes.Relaxation.Basic
import CuttingPlanes.Separator.Basic

/-! A pool of rows as a family: the rows that the current values of a program do not keep. -/

namespace CuttingPlanes

/-- Rows by position, with the sense under which each is measured and the one that it states. -/
structure PoolRow (K ι N : Type) where
  measured : Row K ι N
  /-- The sense for adding the row, or why there is none. -/
  stated : Except Fault Sense

namespace PoolRow

variable {β K ι N ρ : Type} [Scalar K] [Ordinal ι] [RowName N]

/-- The row as it is added. -/
def made (row : PoolRow K ι N) : Except Fault (Row K ι N) := do
  return { row.measured with sense := ← row.stated }

/-- The rows of a pool as a family over a program and the list of positions added so far. -/
def family (backend : Backend β K ι N) (rows : List (PoolRow K ι N)) (tolerance : K) :
    Family (List Nat × (Relaxation K ι N × β)) Nat (Option K) where
  enumerate := return Source.ofList (List.range rows.length)
  measure position := do
    let point := (← Action.get).2.1.values
    match rows[position]? with
    | none => return none
    | some row => do
        let excess ← Action.ofExcept (row.measured.violation point)
        return if ← Action.ofExcept (Scalar.order .greater excess tolerance) then some excess
          else none
  commit position :=
    match rows[position]? with
    | none => pure ()
    | some row => do
        (Relaxation.rowAdder backend (fun (row : PoolRow K ι N) => Action.ofExcept row.made)
          row).onSecond
        Action.modify fun state => (state.1 ++ [position], state.2)
  describe position := Layout.integer position

/-- What a run changes: the counters, the rotation, the positions added and the program. -/
abbrev State (β K ι N ρ : Type) : Type :=
  Tally × (Rotation ρ × (List Nat × (Relaxation K ι N × β)))

/-- The alternation of solving the program and looking for a row that is not kept. -/
def task (backend : Backend β K ι N)
    (separator : Separator (Rotation ρ × (List Nat × (Relaxation K ι N × β))) Nat (Option K))
    (fuel : Nat) : Task (State β K ι N ρ) (LpAnswer K) LpStatus Bool where
  solve := (Relaxation.solve backend).onSecond.onSecond.onSecond
  separate := separator.call fuel
  optimal := .optimal

end PoolRow

end CuttingPlanes
