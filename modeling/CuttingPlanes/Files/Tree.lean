import CuttingPlanes.Action
import CuttingPlanes.Association
import CuttingPlanes.Files.Path

/-! A tree of directories and texts, looked up by paths from a working directory. -/

namespace CuttingPlanes

/-- The names that lead from the root to a place. -/
abbrev Place := List String

/-- What is at a place. -/
inductive FileNode where
  | directory
  | file (text : String)
  /-- Takes every text and holds none. -/
  | sink
  deriving DecidableEq, Repr

/-- Directories and texts, and the directory that relative paths begin in. -/
structure FileTree where
  /-- What is at each place but the root, in the order in which it was made. -/
  nodes : List (Place × FileNode)
  working : Place
  deriving DecidableEq, Repr

namespace FileTree

open Files (Path)

/-- The directory that holds the working directory and the user's own. -/
def base : Place := ["tmp", "openrg"]

/-- The user's own directory. -/
def home : Place := base ++ ["home"]

/-- The directories right under the root. -/
def rootNames : List String :=
  [ "bin", "boot", "dev", "etc", "home", "lib", "media", "mnt", "opt", "proc", "root", "run",
    "sbin", "srv", "sys", "tmp", "usr", "var" ]

/-- A tree with an empty working directory and an empty directory of the user. -/
def standard : FileTree where
  nodes :=
    (rootNames.map fun name => ([name], .directory)) ++
      [ (["dev", "null"], .sink), (base, .directory), (base ++ ["work"], .directory),
        (home, .directory) ]
  working := base ++ ["work"]

/-- What is at a place; the root is always a directory. -/
def node? (tree : FileTree) (place : Place) : Option FileNode :=
  if place.isEmpty then some .directory else Association.find? place tree.nodes

/-- The tree with something at a place. -/
def put (tree : FileTree) (place : Place) (node : FileNode) : FileTree :=
  { tree with nodes := Association.insert place node tree.nodes }

/--
The place that steps lead to. Every step is taken in a directory, and one upwards from the root
stays there; whether there is anything at the last place is left open.
-/
def follow (tree : FileTree) (path : Path) : (here : Place) → List String → Except Fault Place
  | here, [] => .ok here
  | here, step :: rest =>
      match tree.node? here with
      | none => .error (.noSuchFile path.shown)
      | some (.file _) => .error (.notDirectory path.shown)
      | some .sink => .error (.notDirectory path.shown)
      | some .directory =>
          if step = Path.upwards then tree.follow path here.dropLast rest
          else if Path.greatestName < step.utf8ByteSize then .error (.nameTooLong path.shown)
          else tree.follow path (here ++ [step]) rest

/-- The place of a path. -/
def place (tree : FileTree) (path : Path) : Except Fault Place := do
  path.check
  tree.follow path (if path.isAbsolute then [] else tree.working) path.steps

/-- What a path leads to. -/
def get (tree : FileTree) (path : Path) : Except Fault FileNode := do
  match tree.node? (← tree.place path) with
  | some node => return node
  | none => throw (.noSuchFile path.shown)

/-- Whether a path leads anywhere; a name that is too long is refused even so. -/
def has (tree : FileTree) (path : Path) : Except Fault Bool :=
  match tree.get path with
  | .ok _ => .ok true
  | .error (.nameTooLong shown) => .error (.nameTooLong shown)
  | .error _ => .ok false

/-- The text of a file. -/
def read (tree : FileTree) (path : Path) : Except Fault String := do
  match ← tree.get path with
  | .file text => return text
  | .sink => return ""
  | .directory => throw (.isDirectory path.shown)

/-- The tree with a text in a file, which is made when it is missing. -/
def write (tree : FileTree) (path : Path) (text : String) : Except Fault FileTree := do
  let place ← tree.place path
  match tree.node? place with
  | some .directory => throw (.isDirectory path.shown)
  | some .sink => return tree
  | _ => return tree.put place (.file text)

/-- The tree with one more directory. -/
def makeDirectory (tree : FileTree) (path : Path) : Except Fault FileTree := do
  let place ← tree.place path
  match tree.node? place with
  | some _ => throw (.fileExists path.shown)
  | none => return tree.put place .directory

/-- The tree with a directory at a path; one that is there already will do. -/
def ensureDirectory (tree : FileTree) (path : Path) : Except Fault FileTree :=
  match tree.makeDirectory path, tree.get path with
  | .error (.fileExists _), .ok .directory => .ok tree
  | made, _ => made

/-- Changes the files unless the change is refused. -/
def change (changed : FileTree → Except Fault FileTree) : Action FileTree Unit := do
  Action.set (← Action.ofExcept (changed (← Action.get)))

/--
Makes a directory at a path, and first those above it where they are missing, within the granted
levels. Directories that were made before a refusal stay.
-/
def makeDirectories (path : Path) : (levels : Nat) → Action FileTree Unit
  | 0 => change fun tree => tree.ensureDirectory path
  | levels + 1 => do
      match (← Action.get).ensureDirectory path with
      | .error (.noSuchFile _) => do
          makeDirectories path.parent levels
          change fun tree => tree.ensureDirectory path
      | made => change fun _ => made

/-- Writes a text to a file, after the directories that the file needs. -/
def writeDeep (path : Path) (text : String) : Action FileTree Unit := do
  makeDirectories path.parent path.steps.length
  change fun tree => tree.write path text

/-- The files right in the working directory by name. -/
def here (tree : FileTree) : List (String × String) :=
  tree.nodes.filterMap fun
    | (place, .file text) =>
        if place.dropLast = tree.working then place.getLast?.map (·, text) else none
    | _ => none

/-- A place as it is written from the working directory, or from the root when it lies outside. -/
def written (tree : FileTree) (place : Place) : String :=
  if tree.working.isPrefixOf place then
    String.intercalate "/" (place.drop tree.working.length)
  else "/" ++ String.intercalate "/" place

/-- All files, each as its place is written. -/
def texts (tree : FileTree) : List (String × String) :=
  tree.nodes.filterMap fun
    | (place, .file text) => some (tree.written place, text)
    | _ => none

end FileTree

end CuttingPlanes
