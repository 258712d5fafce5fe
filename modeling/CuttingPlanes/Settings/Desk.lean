import CuttingPlanes.Action
import CuttingPlanes.Settings.Level
import CuttingPlanes.Settings.Place

/-! Work with settings: one of them is current, files and the environment are beside it. -/

namespace CuttingPlanes

open Files (Path)

/-- The environment, the files, the current settings and the level of the settings in force. -/
structure Desk where
  environment : Environment
  files : FileTree
  current : Option Settings
  level : Datum

namespace Desk

/-- A desk without settings in an environment, which names the user's directory by itself. -/
def inEnvironment (environment : Environment) : Desk where
  environment :=
    Association.updated [("HOME", "/" ++ String.intercalate "/" FileTree.home)] environment
  files := FileTree.standard
  current := none
  level := .text "INFO"

/-- Makes settings the current ones, unless they are refused. -/
def take (made : Desk → Except Fault Settings) : Action Desk Settings := do
  let settings ← Action.ofExcept (made (← Action.get))
  Action.modify fun desk => { desk with current := some settings }
  return settings

/-- Work on the files. -/
def onFiles (action : Action FileTree Unit) : Action Desk Unit := fun desk =>
  let outcome := action desk.files
  ⟨outcome.result, { desk with files := outcome.state }, outcome.log⟩

/-- Writes a file, with the directories that it needs. -/
def write (path : Option Path) (text : String) : Action Desk Unit :=
  onFiles (FileTree.writeDeep (path.getD Settings.usualPath) text)

/-- Writes the user's own file of settings. -/
def writeOfUser (text : String) : Action Desk Unit := do
  let path ← Action.ofExcept (Settings.userPath (← Action.get).environment)
  write (some path) text

/-- Saves settings in a directory that is there; gives the text as it is read back. -/
def save (settings : Settings) (path : Option Path) : Action Desk String := do
  let text ← Action.ofExcept settings.toFile
  let path := path.getD Settings.usualPath
  onFiles (FileTree.change fun files => files.write path text)
  return Text.withPlainBreaks (← Action.ofExcept ((← Action.get).files.read path))

/-- Refuses a variable that the environment cannot hold. -/
def checkVariable (name value : String) : Except Fault Unit := do
  if name.contains '\x00' || value.contains '\x00' then throw .embeddedNull
  if name.contains '=' then throw .badVariableName
  if name.isEmpty then throw .badVariable

/-- Gives a variable of the environment a value, or takes it away. -/
def setVariable (name : String) (value : Option String) : Action Desk Unit := do
  Action.ofExcept (value.forM (checkVariable name))
  Action.modify fun desk =>
    { desk with environment := match value with
      | some value => Association.insert name value desk.environment
      | none => desk.environment.filter fun entry => entry.1 != name }

/-- Whether settings come back from their own entries. -/
def comesBack (settings : Settings) : Action Desk Bool := do
  let entries ← Action.ofExcept settings.toEntries
  let again ← Action.ofExcept
    (Settings.ofEntries (← Action.get).environment entries)
  return again.agrees settings

/-- The level of reports for a given value, after the level in force may have been changed. -/
def reportLevel (given : Datum) (changed : Option Datum) : Action Desk Datum := do
  Action.modify fun desk => { desk with level := changed.getD desk.level }
  Action.ofExcept (Settings.reportLevel given (← Action.get).level)

end Desk

end CuttingPlanes
