import CuttingPlanes.Settings.Basic
import CuttingPlanes.Text.Lines

/-! Settings written as lines of text, and read back. -/

namespace CuttingPlanes.Settings

/-- The lines of a file of settings. -/
def fileLines (settings : Settings) : Except Fault (List String) := do
  let tolerances ← settings.tolerances.listed
  return [ "# OpenRG Configuration", "", "[general]",
      "log_level = \"" ++ settings.logLevel ++ "\"",
      "default_strategy = \"" ++ settings.defaultStrategy.plain ++ "\"" ] ++
    (if settings.seed.isNothing then [] else ["seed = " ++ settings.seed.plain]) ++
    ["", "[tolerances]"] ++
    tolerances.map fun entry => entry.1.plain ++ " = " ++ entry.2.plain

/-- The text of a file of settings. -/
def toFile (settings : Settings) : Except Fault String := do
  return Text.unlines (← settings.fileLines) ++ "\n"

/-- What has been read of a file: the entries so far and the section that the next line is in. -/
structure Parsed where
  /-- The values by name, but for the tolerances. -/
  values : List (String × Datum)
  tolerances : Tolerances
  heading : Option String

/-- A file of which nothing has been read. -/
def Parsed.start : Parsed := ⟨[], .held [], none⟩

/-- The name of the section of the tolerances, and of the entry that holds them. -/
def tolerancesName : String := "tolerances"

/-- What a file gives for settings; names that mean nothing are left out. -/
def Parsed.given (parsed : Parsed) : Given where
  logLevel := Association.find? "log_level" parsed.values
  defaultStrategy := Association.find? "default_strategy" parsed.values
  seed := Association.find? "seed" parsed.values
  tolerances := some parsed.tolerances

/-- Whether a value is written as a whole number: hyphens and then digits. -/
def looksWhole (cs : List Char) : Bool :=
  let digits := cs.dropWhile (· == '-')
  !digits.isEmpty && digits.all Text.isDigit

/-- A value as it is written: quoted text, a whole number or a real. -/
def readValue (cs : List Char) : Except Fault Datum :=
  let s := String.ofList cs
  if cs.head? == some '"' then .ok (.text (String.ofList (Text.trimWhere (· == '"') cs)))
  else if looksWhole cs then Datum.int <$> Reading.integer s
  else Datum.float <$> (Datum.text s).toFloat

/-- A name and a value, put where the section says. -/
def Parsed.put (parsed : Parsed) (name : String) (value : Datum) : Except Fault Parsed := do
  if parsed.heading = some tolerancesName then
    let real ← value.toFloat
    return { parsed with tolerances := ← parsed.tolerances.set (.text name) (.float real) }
  else if name = tolerancesName then return { parsed with tolerances := .misplaced value }
  else return { parsed with values := Association.insert name value parsed.values }

/-- The name of a section, when a line opens one. -/
def sectionName? (cs : List Char) : Option String :=
  if cs.head? == some '[' && cs.getLast? == some ']' then
    some (String.ofList (cs.drop 1).dropLast)
  else none

/-- Reads one line; a line without an equals sign says nothing. -/
def Parsed.line (parsed : Parsed) (line : String) : Except Fault Parsed := do
  let cs := Text.trimWhere Text.isBlank line.toList
  if cs.isEmpty || cs.head? == some '#' then return parsed
  match sectionName? cs with
  | some name => return { parsed with heading := some name }
  | none =>
      if cs.contains '=' then
        let name := Text.trimWhere Text.isBlank (cs.takeWhile (· != '='))
        let value := Text.trimWhere Text.isBlank ((cs.dropWhile (· != '=')).drop 1)
        parsed.put (String.ofList name) (← readValue value)
      else return parsed

/-- What a file gives for settings. -/
def givenInFile (text : String) : Except Fault Given := do
  return (← (Text.lines text).foldlM Parsed.line Parsed.start).given

/-- Settings from the text of a file. -/
def ofFile (environment : Environment) (text : String) : Except Fault Settings := do
  ofEntries environment (← givenInFile text)

end CuttingPlanes.Settings
