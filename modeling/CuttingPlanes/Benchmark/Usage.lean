import CuttingPlanes.Benchmark.Arguments
import CuttingPlanes.Number.Layout

/-! How the options of the benchmark are explained. -/

namespace CuttingPlanes.Benchmark

/-- The lines that show every option at once. -/
def usage : List String :=
  [ "usage: " ++ commandName ++ " [-h] [--nodes NODES] [--density DENSITY]",
    "                             [--instances INSTANCES] [--seed SEED] [--verbose]",
    "                             [--output OUTPUT]" ]

/-- An option beside what it does; a long option has a line of its own. -/
def explained (option text : String) : List String :=
  let opening := "  " ++ option
  if opening.length ≤ 22 then [Layout.flushLeft 24 opening ++ text]
  else [opening, Layout.flushLeft 24 "" ++ text]

/-- The whole explanation. -/
def help : String :=
  String.intercalate "\n" <|
    usage ++ ["", "Compare separation policies", "", "options:"] ++
    explained "-h, --help" "show this help message and exit" ++
    explained "--nodes NODES" "Nodes per instance (default: 7)" ++
    explained "--density DENSITY" "Edge probability (default: 0.6)" ++
    explained "--instances INSTANCES" "Number of random instances (default: 3)" ++
    explained "--seed SEED" "Base seed (default: 0)" ++
    explained "--verbose" "Per-iteration logging" ++
    explained "--output OUTPUT" "Output CSV file path"

end CuttingPlanes.Benchmark
