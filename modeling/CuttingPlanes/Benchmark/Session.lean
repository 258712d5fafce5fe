import CuttingPlanes.Benchmark.Run
import CuttingPlanes.Benchmark.Usage
import CuttingPlanes.Settings.Tolerances

/-! What a command line leads to: reports, files, an exit code, or a complaint. -/

namespace CuttingPlanes.Benchmark

/-- What a command line leads to. -/
structure Session where
  /-- The exit code, or what kept the benchmark from its end. -/
  exit : Except Interrupt Nat
  /-- The level from which reports are shown, once it is settled. -/
  level : Option Level
  /-- The reports that are shown. -/
  log : List LogEntry
  files : FileTree
  /-- The explanation, where it is asked for. -/
  explanation : Option String
  /-- The line that says what is wrong with the command line. -/
  complaint : Option String

/-- A benchmark with the usual tolerances whose clock stands still. -/
def usualSetup (fuel : Nat) : Setup Unit Datum where
  solver := Linear.simplex
  violation := Tolerances.usualValue
  integrality := Tolerances.usualValue
  clock := fun _ => (Scalar.ofRat 0, ())
  fuel := fuel

/-- The session of a request: it exits with one where a result is wrong. -/
def Session.ofRequest (fuel : Nat) (request : Request) : Session :=
  let outcome := (perform (usualSetup fuel) request FileTree.standard).run ()
  { exit := outcome.result.map fun found => if found.2 then 0 else 1
    level := some request.level
    log := outcome.log.filter fun entry =>
      request.level.number ≤ entry.level.number
    files := match outcome.result with
      | .ok found => found.1
      | .error _ => FileTree.standard
    explanation := none
    complaint := none }

/-- The session of a command line: a wrong one exits with two. -/
def Session.ofArguments (fuel : Nat) (arguments : List String) : Session :=
  match Command.ofArguments arguments with
  | .error text => ⟨.ok 2, none, [], FileTree.standard, none, some (errorLine text)⟩
  | .ok .help => ⟨.ok 0, none, [], FileTree.standard, some help, none⟩
  | .ok (.run request) => Session.ofRequest fuel request

end CuttingPlanes.Benchmark
