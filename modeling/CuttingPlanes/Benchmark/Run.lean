import CuttingPlanes.Benchmark.Arguments
import CuttingPlanes.Benchmark.Compare
import CuttingPlanes.Files.Tree

/-! The whole benchmark: random graphs, a table over the policies, and a file with every result. -/

namespace CuttingPlanes.Benchmark

variable {κ K : Type} [Scalar K]

/-- Solves the samples of seeds in a row. -/
def runSamples (setup : Setup κ K) (request : Request) (count : Nat) :
    (position : Nat) → (left : Nat) → Action κ (List (Result K))
  | _, 0 => return []
  | position, left + 1 => do
      let seed := request.seed + position
      let graph : Graph Nat K ←
        sampleOf request.nodes (.float request.density) seed setup.fuel
      Action.report (note ("[" ++ Layout.integer (position + 1) ++ "/" ++ Layout.integer count ++
        "] " ++ graph.name.plain ++ ": " ++ Layout.integer graph.nodes.length ++ " nodes, " ++
        Layout.integer graph.edges.length ++ " edges"))
      let results ← compareGraph setup graph seed
      return results ++ (← runSamples setup request count (position + 1) left)

/-- The sum of a count over all results. -/
def sumOf (count : Result K → Int) (results : List (Result K)) : Int :=
  results.foldl (fun sum result => sum + count result) 0

/-- The sum of times. -/
def sumTimes (results : List (Result K)) : Except Fault K :=
  results.foldlM (fun total result => Scalar.add total result.time) (Scalar.ofInt 0)

/-- The heading of the table. -/
def heading : String :=
  Layout.flushLeft 10 "Strategy" ++ " " ++ Layout.flushRight 8 "Rows" ++ " " ++
    Layout.flushRight 8 "Iters" ++ " " ++ Layout.flushRight 10 "Time (s)" ++ " " ++
    Layout.flushRight 10 "Correct"

/-- The line of the table for one policy. -/
def policyLine (results : List (Result K)) (policy : Policy) : Except Fault String := do
  let own := results.filter fun result => result.policy == policy
  let time ← Scalar.fixed 3 (← sumTimes own)
  let matched := own.filter fun result => result.isMatch
  return Layout.flushLeft 10 policy.word ++ " " ++
    Layout.flushRight 8 (Layout.integer (sumOf Result.rowsAdded own)) ++ " " ++
    Layout.flushRight 8 (Layout.integer (sumOf Result.iterations own)) ++ " " ++
    Layout.flushRight 10 time ++ " " ++
    Layout.flushRight 6 (Layout.integer matched.length) ++ "/" ++ Layout.integer own.length

/-- A line across the table. -/
def rule (c : Char) : String := String.ofList (List.replicate 70 c)

/-- Reports the table over all results. -/
def reportTable (results : List (Result K)) : Action κ Unit := do
  Action.report (note (rule '='))
  Action.report (note heading)
  Action.report (note (rule '-'))
  for policy in policies do
    Action.report (note (← Action.ofExcept (policyLine results policy)))
  Action.report (note (rule '='))

/-- A field of the file, in quotes where it holds a mark of the format. -/
def field (s : String) : String :=
  if s.any fun c => c == ',' || c == '"' || c == '\n' || c == '\r' then
    "\"" ++ String.ofList (s.toList.flatMap fun c => if c = '"' then ['"', '"'] else [c]) ++ "\""
  else s

/-- A line of the file. -/
def fileLine (fields : List String) : String :=
  String.intercalate "," (fields.map field) ++ "\r\n"

/-- The names of the fields. -/
def fieldNames : List String :=
  [ "instance", "nodes", "edges", "strategy", "status", "objective", "mst_weight", "matches_mst",
    "rows_added", "iterations", "time_s" ]

/-- The fields of a result. -/
def fields (result : Result K) : List String :=
  [ if result.instanceName.isNothing then "" else result.instanceName.plain,
    Layout.integer result.nodes, Layout.integer result.edges, result.policy.word,
    result.ending.name, (result.objective.map Scalar.text).getD "",
    Scalar.text result.treeWeight, if result.isMatch then "True" else "False",
    Layout.integer result.rowsAdded, Layout.integer result.iterations, Scalar.text result.time ]

/-- The text of the file with all results. -/
def toFile (results : List (Result K)) : String :=
  String.join (fileLine fieldNames :: results.map fun result => fileLine (fields result))

/-- Saves the results where a path is given and there are any. -/
def saveResults (request : Request) (results : List (Result K)) (files : FileTree) :
    Action κ FileTree :=
  match request.output with
  | none => return files
  | some path => do
      if path.isEmpty || results.isEmpty then return files
      let path := Files.Path.ofString path
      let saved ← Action.ofExcept (files.write path (toFile results))
      Action.report (note ("Results saved to: " ++ path.text))
      return saved

/-- The whole benchmark: gives the files afterwards and whether every result was right. -/
def perform (setup : Setup κ K) (request : Request) (files : FileTree) :
    Action κ (FileTree × Bool) := do
  let results ← runSamples setup request request.instances.toNat 0 request.instances.toNat
  reportTable results
  let files ← saveResults request results files
  return (files, results.all fun result => result.isMatch)

/-- The level from which reports are shown. -/
def Request.level (request : Request) : Level := if request.verbose then .debug else .info

end CuttingPlanes.Benchmark
