import CuttingPlanes.Benchmark.Session

/-! The benchmark as a program: reports go to the error stream, the explanation to the output. -/

namespace CuttingPlanes.Benchmark

/-- The turns that a run is granted. -/
def grantedTurns : Nat := 1000000000000000000

/-- A report as it is printed. -/
def reportLine (entry : LogEntry) : String :=
  entry.level.name ++ " | " ++ entry.source ++ " | " ++ entry.message

/-- Why a run has no result. -/
def interruptLine : Interrupt → String
  | .raised fault => fault.message
  | .unfinished => "the granted turns are used up"

end CuttingPlanes.Benchmark

open CuttingPlanes

/-- Runs the benchmark that the arguments ask for. -/
def main (arguments : List String) : IO UInt32 := do
  let session := Benchmark.Session.ofArguments Benchmark.grantedTurns arguments
  for entry in session.log do IO.eprintln (Benchmark.reportLine entry)
  for text in session.explanation do IO.println text
  for line in session.complaint do
    for shown in Benchmark.usage do IO.eprintln shown
    IO.eprintln line
  for file in session.files.texts do IO.FS.writeFile file.1 file.2
  match session.exit with
  | .ok code => return code.toUInt32
  | .error cause => do
      IO.eprintln (Benchmark.interruptLine cause)
      return 1
