import CuttingPlanes.Datum.Basic
import CuttingPlanes.Fault
import CuttingPlanes.Text.Quoted

/-! Paths: how they begin, and the steps that they take from there. -/

namespace CuttingPlanes.Files

/-- A path. -/
structure Path where
  /-- The slashes at the front, which are one or two when the path begins at the root. -/
  opening : String
  /-- The names and the steps upwards. -/
  steps : List String
  deriving DecidableEq, Repr

namespace Path

/-- The slashes that stay at the front of a path: two of them are kept, more count as one. -/
def openingOf (cs : List Char) : String :=
  match (cs.takeWhile (· == '/')).length with
  | 0 => ""
  | 2 => "//"
  | _ => "/"

/-- The path that a text writes; steps that lead nowhere are left out. -/
def ofString (s : String) : Path where
  opening := openingOf s.toList
  steps := (s.splitOn "/").filter fun step => step != "" && step != "."

/-- The path that a value gives, if it gives one. -/
def ofDatum : Datum → Except Fault (Option Path)
  | .nothing => .ok none
  | .text s => .ok (some (ofString s))
  | value => .error (.notAPath value.kind)

/-- A path as it is written; a single point stands for the empty one. -/
def text (path : Path) : String :=
  let written := path.opening ++ String.intercalate "/" path.steps
  if written.isEmpty then "." else written

/-- Whether a path begins at the root. -/
def isAbsolute (path : Path) : Bool := !path.opening.isEmpty

/-- The path without its last step. -/
def parent (path : Path) : Path := { path with steps := path.steps.dropLast }

/-- The path with more steps behind it. -/
def join (path : Path) (steps : List String) : Path := { path with steps := path.steps ++ steps }

/-- The step upwards. -/
def upwards : String := ".."

/-- The greatest number of bytes in a name. -/
def greatestName : Nat := 255

/-- The greatest number of bytes in a path. -/
def greatestPath : Nat := 4095

/-- A path as messages show it. -/
def shown (path : Path) : String := Text.quoted path.text

/-- Refuses a path that cannot be looked up, whatever files there are. -/
def check (path : Path) : Except Fault Unit := do
  if path.text.contains '\x00' then throw .embeddedNull
  if greatestPath < path.text.utf8ByteSize then throw (.nameTooLong path.shown)

end Path

end CuttingPlanes.Files
