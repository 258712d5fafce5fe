import CuttingPlanes.Linear.Program

/-!
Proofs of what a solver finds: multipliers that bound the cost of every point, and directions in
which the cost improves forever.
-/

namespace CuttingPlanes.Linear

/-- The least product of a factor with a member of an interval, when there is one. -/
def Bounds.leastProduct (bounds : Bounds) (factor : Rat) : Option Rat :=
  if factor = 0 then some 0
  else if 0 < factor then bounds.lower.map (factor * ·)
  else bounds.upper.map (factor * ·)

/-- The cost that a variable keeps when multiples of the rows are taken away from it. -/
def reducedCost (rows : List Row) (multipliers : List Rat) (position : Nat) (cost : Rat) : Rat :=
  let shares := List.zipWith
    (fun (row : Row) multiplier =>
      multiplier * total (row.terms.map fun term => if term.1 = position then term.2 else 0))
    rows multipliers
  cost - total shares

/-- The sum of numbers all of which are there. -/
def sumAll : List (Option Rat) → Option Rat
  | [] => some 0
  | head :: rest => do return (← head) + (← sumAll rest)

/-- A number that no point of the program costs less than, by multiples of the rows. -/
def Program.lowerBound (program : Program) (costs multipliers : List Rat) : Option Rat := do
  let byRows ← sumAll
    (List.zipWith (fun row multiplier => row.bounds.leastProduct multiplier)
      program.rows multipliers)
  let reduced := costs.zipIdx.map fun entry =>
    reducedCost program.rows multipliers entry.2 entry.1
  let byColumns ← sumAll
    (List.zipWith (fun column factor => column.bounds.leastProduct factor)
      program.columns reduced)
  return byRows + byColumns

/-- A proof of a finding. -/
inductive Certificate where
  /-- A point whose cost is the bound that the multipliers give. -/
  | optimal (point multipliers : List Rat)
  /-- Multipliers under which points without any cost would cost more than nothing. -/
  | infeasible (multipliers : List Rat)
  /-- A point, and a direction that keeps every bound and lowers the cost. -/
  | unbounded (point direction : List Rat)

namespace Certificate

/-- Whether a direction keeps every bound of a program. -/
def recedes (program : Program) (direction : List Rat) : Bool :=
  direction.length == program.columns.length &&
    (List.zipWith (fun column x => column.bounds.recedes x) program.columns direction).all id &&
    program.rows.all fun row => row.bounds.recedes (row.activity direction)

/-- Whether a certificate proves what it says. -/
def proves (program : Program) : Certificate → Bool
  | optimal point multipliers =>
      program.isFeasible point && multipliers.length == program.rows.length &&
        (program.lowerBound program.minimised multipliers).any
          (fun bound => dot program.minimised point ≤ bound)
  | infeasible multipliers =>
      multipliers.length == program.rows.length &&
        (program.lowerBound (program.columns.map fun _ => 0) multipliers).any (0 < ·)
  | unbounded point direction =>
      program.isFeasible point && recedes program direction &&
        dot program.minimised direction < 0

/-- What a certificate says about a program. -/
def finding (program : Program) : Certificate → Finding
  | optimal point multipliers =>
      .optimal point (multipliers.map fun y => if program.maximise then -y else y)
  | infeasible _ => .infeasible
  | unbounded _ _ => .unbounded

/-- The finding of a certificate that proves it, and nothing otherwise. -/
def check (program : Program) (certificate : Certificate) : Finding :=
  if certificate.proves program then certificate.finding program else .unknown

end Certificate

end CuttingPlanes.Linear
