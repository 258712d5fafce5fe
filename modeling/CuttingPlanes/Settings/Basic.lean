import CuttingPlanes.Datum.Arithmetic
import CuttingPlanes.Settings.Tolerances
import CuttingPlanes.Text.Upper

/-! Settings of the library: the level of reports, the usual policy, the seed and the tolerances. -/

namespace CuttingPlanes

/-- The settings in force. -/
structure Settings where
  logLevel : String
  defaultStrategy : Datum
  seed : Datum
  tolerances : Tolerances

/-- Variables of the environment by name. -/
abbrev Environment := List (String × String)

namespace Settings

/-- The policy that settings begin with. -/
def usualStrategy : Datum := .text "max"

/-- The level of reports that the environment asks for. -/
def environmentLevel (environment : Environment) : Datum :=
  .text (Text.upper ((Association.find? "OPENRG_LOG_LEVEL" environment).getD "INFO"))

/-- The seed that the environment asks for; empty text asks for none. -/
def environmentSeed (environment : Environment) : Except Fault Datum :=
  match Association.find? "OPENRG_SEED" environment with
  | some s => if s.isEmpty then .ok .nothing else Datum.int <$> Reading.integer s
  | none => .ok .nothing

/-- A seed given as text is read as a whole number. -/
def normalSeed : Datum → Except Fault Datum
  | .text s => Datum.int <$> Reading.integer s
  | seed => .ok seed

/-- What is given for settings; what is missing is left open. -/
structure Given where
  logLevel : Option Datum
  defaultStrategy : Option Datum
  seed : Option Datum
  tolerances : Option Tolerances

/-- Settings from what is given; the rest comes from the environment or is as usual. -/
def make (environment : Environment) (given : Given) : Except Fault Settings := do
  let seed ← match given.seed with
    | some seed => pure seed
    | none => environmentSeed environment
  return {
    logLevel := Text.upper (given.logLevel.getD (environmentLevel environment)).plain
    defaultStrategy := given.defaultStrategy.getD usualStrategy
    seed := ← normalSeed seed
    tolerances := given.tolerances.getD Tolerances.usual }

/-- The settings of an environment, with nothing given. -/
def usual (environment : Environment) : Except Fault Settings :=
  make environment ⟨none, none, none, none⟩

/-- The tolerance of a name. -/
def tolerance (settings : Settings) (name : Datum) : Except Fault Datum :=
  settings.tolerances.get name

/-- The settings with another tolerance under a name. -/
def withTolerance (settings : Settings) (name value : Datum) : Except Fault Settings := do
  return { settings with tolerances := ← settings.tolerances.set name value }

/-- The settings as entries, each of which can be read back. -/
def toEntries (settings : Settings) : Except Fault Given := do
  return {
    logLevel := some (.text settings.logLevel)
    defaultStrategy := some settings.defaultStrategy
    seed := some settings.seed
    tolerances := some (.held (← settings.tolerances.copied)) }

/-- Settings from entries; a level or a seed that is missing does not come from the environment. -/
def ofEntries (environment : Environment) (entries : Given) : Except Fault Settings := do
  -- The usual settings are made first, and with them the seed of the environment is read.
  let _ ← usual environment
  let tolerances ← (entries.tolerances.getD (.held [])).overUsual
  make environment
    { logLevel := some (entries.logLevel.getD (.text "INFO"))
      defaultStrategy := some (entries.defaultStrategy.getD usualStrategy)
      seed := some (entries.seed.getD .nothing)
      tolerances := some tolerances }

/-- Whether two settings agree in every value. -/
def agrees (left right : Settings) : Bool :=
  left.logLevel == right.logLevel && left.defaultStrategy == right.defaultStrategy &&
    left.seed == right.seed && left.tolerances.agree right.tolerances

end Settings

end CuttingPlanes
