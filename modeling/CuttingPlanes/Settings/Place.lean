import CuttingPlanes.Files.Tree
import CuttingPlanes.Settings.File

/-! Where settings are kept: in the working directory, or in the user's own directory. -/

namespace CuttingPlanes.Settings

open Files (Path)

/-- The path of the settings where none is given. -/
def usualPath : Path := Path.ofString "openrg.toml"

/-- The user's own directory where the environment names none. -/
def rootHome : String := "/root"

/-- The user's own directory as the environment names it, without slashes at its end. -/
def homeText (environment : Environment) : String :=
  let named := (Association.find? "HOME" environment).getD rootHome
  let trimmed := (named.toList.reverse.dropWhile (· == '/')).reverse
  if trimmed.isEmpty then "/" else String.ofList trimmed

/-- The user's own file of settings; a directory that stands for another one leads nowhere. -/
def userPath (environment : Environment) : Except Fault Path :=
  let home := homeText environment
  if home.startsWith "~" then .error .noHome
  else .ok ((Path.ofString home).join [".openrg", "config.toml"])

/-- The first of the usual places where there is anything. -/
def firstPlace (environment : Environment) (tree : FileTree) : Except Fault (Option Path) := do
  let own ← userPath environment
  if ← tree.has usualPath then return some usualPath
  else if ← tree.has own then return some own
  else return none

/-- Settings from a file or the first of the usual places; a missing file leaves the usual ones. -/
def load (environment : Environment) (tree : FileTree) (path : Option Path) :
    Except Fault Settings := do
  let found ← match path with
    | some path => do pure (if ← tree.has path then some path else none)
    | none => firstPlace environment tree
  match found with
  | some path => do ofFile environment (← tree.read path)
  | none => usual environment

end CuttingPlanes.Settings
