/-! Sets of characters given as runs of code points. -/

namespace CuttingPlanes.Text

/-- Whether a character lies in one of the runs, each named by its first and last code point. -/
def inRuns (runs : Array (Nat × Nat)) (c : Char) : Bool :=
  runs.any fun run => run.1 ≤ c.toNat && c.toNat ≤ run.2

end CuttingPlanes.Text
