import CuttingPlanes.Number.Shortest
import CuttingPlanes.Text.Blank
import CuttingPlanes.Text.Digit
import CuttingPlanes.Text.Upper
import CuttingPlanes.Text.Lines
import CuttingPlanes.Text.Quoted
import CuttingPlanes.Number.Reading
import CuttingPlanes.Scalar
import CuttingPlanes.Rotation
import CuttingPlanes.Separator.Basic
import CuttingPlanes.Loop.Supervisor
import CuttingPlanes.Linear.Simplex
import CuttingPlanes.Relaxation.Held
import CuttingPlanes.Graph.Forest
import CuttingPlanes.Spanning.Solve
import CuttingPlanes.Settings.Place
import CuttingPlanes.Benchmark.Session
import CuttingPlanes.Json.Reader
import CuttingPlanes.Json.Writer
import CuttingPlanes.Separator.Session
import CuttingPlanes.Separator.Choice
import CuttingPlanes.Loop.Script
import CuttingPlanes.Relaxation.Playback
import CuttingPlanes.Relaxation.Pool
import CuttingPlanes.Settings.Desk
import CuttingPlanes.Loop.Ticker
import CuttingPlanes.Spanning.Wishes
import CuttingPlanes.Main
import CuttingPlanes.Proofs.Spanning.Optimum
import CuttingPlanes.Proofs.Spanning.Bound
import CuttingPlanes.Proofs.Spanning.Verdict
import CuttingPlanes.Proofs.Spanning.Progress
import CuttingPlanes.Proofs.Loop.Refinement
import CuttingPlanes.Proofs.Loop.Resumption
import CuttingPlanes.Proofs.Loop.Exhaustion
import CuttingPlanes.Proofs.Loop.Failure
import CuttingPlanes.Proofs.Loop.Stopping
import CuttingPlanes.Proofs.Separator.Count
import CuttingPlanes.Proofs.Separator.Agreement
import CuttingPlanes.Proofs.Separator.Drain
import CuttingPlanes.Proofs.Separator.Start
import CuttingPlanes.Proofs.Loop.Alternation
import CuttingPlanes.Proofs.Relaxation.Addition
import CuttingPlanes.Proofs.Relaxation.Lockstep
import CuttingPlanes.Proofs.Relaxation.Truth
import CuttingPlanes.Proofs.Relaxation.Descent
import CuttingPlanes.Proofs.Spanning.Deepest
import CuttingPlanes.Proofs.Spanning.EdgeValues
import CuttingPlanes.Proofs.Spanning.Conversion
import CuttingPlanes.Proofs.Settings.RoundTrip
import CuttingPlanes.Proofs.Loop.Attendance
import CuttingPlanes.Proofs.Loop.Deadline
import CuttingPlanes.Proofs.Number.Unpacked
import CuttingPlanes.Proofs.Number.Whole
import CuttingPlanes.Proofs.Loop.Timekeeping
import CuttingPlanes.Proofs.Graph.Network
import CuttingPlanes.Proofs.Multigraph.Merge
import CuttingPlanes.Proofs.Spanning.Merge
import CuttingPlanes.Proofs.Separator.Default
import CuttingPlanes.Proofs.Benchmark.Compare
