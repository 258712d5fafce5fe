import CuttingPlanes.Action
import CuttingPlanes.Relaxation.Answer
import CuttingPlanes.Relaxation.Row

/-!
Linear programs that grow by columns and rows. A record of everything added stands beside a
backend that solves it.
-/

namespace CuttingPlanes

/-- The record of a program. -/
structure Relaxation (K ι N : Type) where
  objective : Objective
  columns : List (Column K N)
  rows : List (Row K ι N)
  /-- The position of the last row of each name. -/
  names : List (N × Nat)
  /-- The answer of the last solve. -/
  last : Option (LpAnswer K)

/-- What solves a program: it is told of every addition and asked for answers. -/
structure Backend (β K ι N : Type) where
  addColumn : Column K N → Action β Unit
  addRow : Row K ι N → Action β Unit
  /-- Runs ahead of every solve. -/
  before : Action β Unit
  /-- Solves, given the numbers of recorded columns and rows. -/
  solve : (columns rows : Nat) → Action β (LpAnswer K)
  /-- Turns the answer of a solve into the one that is kept. -/
  after : LpAnswer K → Action β (LpAnswer K)

namespace Relaxation

variable {β K ι N : Type}

/-- A program without columns and rows. -/
def empty (objective : Objective) : Relaxation K ι N := ⟨objective, [], [], [], none⟩

variable [Scalar K] [Ordinal ι] [RowName N]

/-- Refuses bounds the lower of which is above the upper. -/
def checkBounds (lower : K) (upper : Option K) : Except Fault Unit :=
  match upper with
  | none => .ok ()
  | some upper => do
      if ← Scalar.order .greater lower upper then
        throw (.invertedBounds (Scalar.text lower) (Scalar.text upper))

/-- Refuses a column outside a count of columns. -/
def checkColumn (count : Nat) (column : ι) : Except Fault Unit := do
  let known ← do
    if ← Ordinal.order .atMost (Ordinal.ofNat 0) column then
      Ordinal.order .less column (Ordinal.ofNat count)
    else pure false
  if !known then throw (.unknownColumn (Ordinal.text column))

/-- Coefficients made real, those equal to zero left out. -/
def realCoefficients : List (ι × K) → Except Fault (List (ι × K))
  | [] => .ok []
  | (column, coefficient) :: rest =>
      if Scalar.isZero coefficient then realCoefficients rest
      else do
        let made ← Scalar.real coefficient
        return (column, made) :: (← realCoefficients rest)

/-- A column as it is recorded. -/
def makeColumn (cost lower : K) (upper : Option K) (name : Option N) :
    Except Fault (Column K N) := do
  checkBounds lower upper
  return ⟨← Scalar.real cost, ← Scalar.real lower, upper, name⟩

/-- A row as it is recorded over a count of columns. -/
def makeRow (count : Nat) (row : Row K ι N) : Except Fault (Row K ι N) := do
  row.coefficients.forM fun entry => checkColumn count entry.1
  let coefficients ← realCoefficients row.coefficients
  return { row with coefficients := coefficients, rhs := ← Scalar.real row.rhs }

/-- Adds a column to the record and to the backend; gives its position. -/
def addColumn (backend : Backend β K ι N) (cost lower : K) (upper : Option K) (name : Option N) :
    Action (Relaxation K ι N × β) Nat := do
  let column ← Action.ofExcept (makeColumn cost lower upper name)
  let position := (← Action.get).1.columns.length
  Action.modify fun state => ({ state.1 with columns := state.1.columns ++ [column] }, state.2)
  (backend.addColumn column).onSecond
  return position

/-- Notes the position of a row under its name, when it has one. -/
def nameRow (name : Option N) (position : Nat) : Action (Relaxation K ι N × β) Unit :=
  match name with
  | none => pure ()
  | some name => do
      Action.ofExcept (RowName.checkKey name)
      Action.modify fun state =>
        ({ state.1 with names := Association.insert name position state.1.names }, state.2)

/-- Adds a row to the record and to the backend; gives its position. -/
def addRow (backend : Backend β K ι N) (row : Row K ι N) :
    Action (Relaxation K ι N × β) Nat := do
  let row ← Action.ofExcept (makeRow (← Action.get).1.columns.length row)
  let position := (← Action.get).1.rows.length
  Action.modify fun state => ({ state.1 with rows := state.1.rows ++ [row] }, state.2)
  nameRow row.name position
  (backend.addRow row).onSecond
  return position

/-- Adds a row whose sense is a value that may state none. -/
def addStatedRow (backend : Backend β K ι N) (coefficients : List (ι × K)) (sense : Datum)
    (rhs : K) (name : Option N) : Action (Relaxation K ι N × β) Nat := do
  let sense ← Action.ofExcept (Sense.ofDatum sense)
  addRow backend ⟨coefficients, sense, rhs, name⟩

/-- Turns candidates into rows and adds them. -/
def rowAdder {γ : Type} (backend : Backend β K ι N)
    (make : γ → Action (Relaxation K ι N × β) (Row K ι N)) (candidate : γ) :
    Action (Relaxation K ι N × β) Unit := do
  let _ ← addRow backend (← make candidate)

/-- Solves the program and keeps the answer. -/
def solve (backend : Backend β K ι N) : Action (Relaxation K ι N × β) (LpAnswer K) := do
  backend.before.onSecond
  let record := (← Action.get).1
  let answer ← (backend.solve record.columns.length record.rows.length).onSecond
  let answer ← (backend.after answer).onSecond
  Action.modify fun state => ({ state.1 with last := some answer }, state.2)
  return answer

/-- Solves the program and gives the status alone. -/
def solveStatus (backend : Backend β K ι N) : Action (Relaxation K ι N × β) LpStatus := do
  return (← solve backend).status

/-- Whether a row of a name has been added. -/
def hasRow (relaxation : Relaxation K ι N) (name : N) : Except Fault Bool := do
  RowName.checkKey name
  return Association.holds name relaxation.names

/-- The value of a column in the last answer, or a default. -/
def value (relaxation : Relaxation K ι N) (column : ι) (default : K) : Except Fault K :=
  match relaxation.last with
  | none => .ok default
  | some answer => answer.value column default

/-- The values of all columns in the last answer; zeros before the first solve. -/
def values (relaxation : Relaxation K ι N) : List K :=
  match relaxation.last with
  | none => relaxation.columns.map fun _ => Scalar.ofRat 0
  | some answer => answer.values

/-- How far the current values are from keeping each row. -/
def violations (relaxation : Relaxation K ι N) : Except Fault (List K) :=
  relaxation.rows.mapM fun row => row.violation relaxation.values

/-- The lines that describe a program under a title. -/
def summary (relaxation : Relaxation K ι N) (title : String) : Except Fault String := do
  let objective ← match relaxation.last.bind LpAnswer.objective with
    | some objective => do pure ["  Last objective: " ++ (← Scalar.fixed 6 objective)]
    | none => pure []
  let status := match relaxation.last with
    | some answer => ["  Last status: " ++ answer.status.name]
    | none => []
  return String.intercalate "\n" <|
    [ title ++ ":", "  Sense: " ++ relaxation.objective.word,
      "  Columns: " ++ Layout.integer relaxation.columns.length,
      "  Rows: " ++ Layout.integer relaxation.rows.length ] ++ status ++ objective

/-- The line that shows a program under a title. -/
def shown (relaxation : Relaxation K ι N) (title : String) : String :=
  title ++ "(sense=" ++ Text.quoted relaxation.objective.word ++
    ", columns=" ++ Layout.integer relaxation.columns.length ++
    ", rows=" ++ Layout.integer relaxation.rows.length ++ ")"

end Relaxation

end CuttingPlanes
