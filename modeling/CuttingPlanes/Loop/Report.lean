import CuttingPlanes.Loop.Status

/-! What a run of the supervised loop records and reports. -/

namespace CuttingPlanes

/-- The record of one iteration. -/
structure Round (K S : Type) where
  /-- The position of the iteration in its run, from one. -/
  iteration : Nat
  status : S
  objective : Option K
  rowAdded : Bool
  solveTime : K
  separationTime : K

/-- The result of one run. -/
structure Report (K S : Type) where
  ending : Ending
  /-- The status of the last solve. -/
  status : S
  /-- The objective of the last solve. -/
  objective : Option K
  iterations : Int
  rowsAdded : Int
  totalTime : K
  solveTime : K
  separationTime : K
  rounds : List (Round K S)

namespace Report

variable {K S : Type} [Scalar K] [Status S]

/-- Whether the run ended with no violated candidate left. -/
def isOptimal (report : Report K S) : Bool := report.ending == .optimal

/-- The objectives, one for each iteration. -/
def convergence (report : Report K S) : List (Option K) := report.rounds.map Round.objective

/-- The shortest total time that shares are taken of. -/
def leastTotal : K := Scalar.ofRat (1 / 1000000)

/-- A part of the total time in percent, with one place. -/
def share (part total : K) : Except Fault String := do
  let scaled ← Scalar.mul (Scalar.ofInt 100) part
  let whole := if ← Scalar.order .greater leastTotal total then leastTotal else total
  Scalar.fixed 1 (← Scalar.div scaled whole)

/-- A time beside its share of the total. -/
def timeWithShare (part total : K) : Except Fault String := do
  let time ← Scalar.fixed 3 part
  return time ++ "s (" ++ (← share part total) ++ "%)"

/-- The lines that describe a run. -/
def summary (report : Report K S) : Except Fault String := do
  let objective ← match report.objective with
    | some objective => do pure ["  Objective: " ++ (← Scalar.fixed 6 objective)]
    | none => pure []
  let total ← Scalar.fixed 3 report.totalTime
  let solving ← timeWithShare report.solveTime report.totalTime
  let separating ← timeWithShare report.separationTime report.totalTime
  return String.intercalate "\n" <|
    [ "Row Generation Solution:", "  Status: " ++ report.ending.name,
      "  Last LP status: " ++ Status.label report.status ] ++ objective ++
    [ "", "  Iterations: " ++ Layout.integer report.iterations,
      "  Rows added: " ++ Layout.integer report.rowsAdded, "",
      "  Total time: " ++ total ++ "s", "  LP time: " ++ solving,
      "  Separation time: " ++ separating ]

/-- The line that shows a run. -/
def shown (report : Report K S) : Except Fault String := do
  let objective ← match report.objective with
    | some objective => do pure (", obj=" ++ (← Scalar.fixed 4 objective))
    | none => pure ""
  return "RGSolution(" ++ report.ending.name ++ objective ++ ", iter=" ++
    Layout.integer report.iterations ++ ")"

end Report

end CuttingPlanes
