import CuttingPlanes.Association
import CuttingPlanes.Datum.Basic
import CuttingPlanes.Text.Upper

/-! The level of reports that settings ask for. -/

namespace CuttingPlanes.Settings

/-- What reports can be asked for by name: levels, and a form that stands among them. -/
def levels : List (String × Datum) :=
  [ ("NOTSET", .int 0), ("DEBUG", .int 10), ("INFO", .int 20), ("WARN", .int 30),
    ("WARNING", .int 30), ("ERROR", .int 40), ("CRITICAL", .int 50), ("FATAL", .int 50),
    ("BASIC_FORMAT", .text "%(levelname)s:%(name)s:%(message)s") ]

/-- The level that stands for names that are not known. -/
def usualLevel : Datum := .int 20

/-- How a report is written. -/
def reportFormat : String := "%(asctime)s %(levelname)s | %(name)s | %(message)s"

/-- The level that a value asks for; one that counts as false asks for that of the settings. -/
def reportLevel (given : Datum) (settings : Datum) : Except Fault Datum :=
  match if given.countsTrue then given else settings with
  | .text name => .ok ((Association.find? (Text.upper name) levels).getD usualLevel)
  | value => .error (.noMember value.kind "upper")

end CuttingPlanes.Settings
