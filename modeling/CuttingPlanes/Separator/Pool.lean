import CuttingPlanes.Event
import CuttingPlanes.Datum.Order
import CuttingPlanes.Separator.Basic

/-! Pools of candidates whose measures are given beforehand and change when one is added. -/

namespace CuttingPlanes

/-- A candidate with the measure that it is found to have. -/
structure PoolEntry where
  candidate : Datum
  /-- The measure, or the refusal to give one. -/
  measure : Except Fault Datum

/-- What becomes of a candidate's measure once it is added. -/
inductive Settling where
  | keep
  | forget
  | clear
  | lower
  | remove

/-- The settling of a name. -/
def Settling.ofName? : String → Option Settling
  | "keep" => some keep
  | "null" => some forget
  | "zero" => some clear
  | "decrement" => some lower
  | "remove" => some remove
  | _ => none

/-- How a pool behaves. -/
structure PoolRules where
  /-- Whether all candidates are produced before the first one is looked at. -/
  eager : Bool
  /-- The position in front of which the enumeration fails. -/
  failure : Option (Nat × Fault)
  settling : Settling
  /-- Why nothing can be added. -/
  refusal : Option Fault

/-- The candidates of a pool, and what has been done with them. -/
structure Pool where
  entries : List PoolEntry
  /-- The candidates whose measures were looked up, the latest first. -/
  evaluated : List Datum
  /-- The candidates that were added, the latest first. -/
  added : List Datum
  enumerations : Nat
  produced : Nat
  /-- The calls of the run, the latest first. -/
  events : List Event

namespace Pool

/-- A pool with which nothing has been done. -/
def ofEntries (entries : List PoolEntry) : Pool := ⟨entries, [], [], 0, 0, []⟩

/-- The pool with what was done forgotten, its calls apart. -/
def rested (pool : Pool) : Pool :=
  { pool with evaluated := [], added := [], enumerations := 0, produced := 0 }

/-- The pool with another measure at a position. -/
def withMeasure (pool : Pool) (position : Nat) (measure : Except Fault Datum) : Pool :=
  { pool with
    entries := pool.entries.modify position fun entry => { entry with measure := measure } }

/-- The pool with one more entry. -/
def pushed (pool : Pool) (entry : PoolEntry) : Pool :=
  { pool with entries := pool.entries ++ [entry] }

/-- Notes a call. -/
def note (event : Event) : Action Pool Unit :=
  Action.modify fun pool => { pool with events := event :: pool.events }

/-- The first entry of a candidate, which is known by its spelling. -/
def find? (pool : Pool) (candidate : Datum) : Option PoolEntry :=
  pool.entries.find? fun entry => entry.candidate.alike candidate

/-- The candidates as they are asked for. -/
def source (rules : PoolRules) : Source Pool Datum :=
  ⟨fun position => do
    match (← Action.get).entries[position]? with
    | none => return none
    | some entry =>
        match rules.failure.filter fun failure => failure.1 == position with
        | some failure => Action.raise failure.2
        | none => do
            Action.modify fun pool => { pool with produced := pool.produced + 1 }
            return some entry.candidate⟩

/-- Starts an enumeration. -/
def enumerate (rules : PoolRules) (fuel : Nat) : Action Pool (Source Pool Datum) := do
  Action.modify fun pool => { pool with enumerations := pool.enumerations + 1 }
  if rules.eager then return Source.ofList (← (source rules).collect fuel)
  else return source rules

/-- Looks a measure up. -/
def measure (candidate : Datum) : Action Pool Datum := do
  Action.modify fun pool => { pool with evaluated := candidate :: pool.evaluated }
  match (← Action.get).find? candidate with
  | none => return .nothing
  | some entry => Action.ofExcept entry.measure

/-- The entry of an added candidate, when it stays. -/
def settled (settling : Settling) (entry : PoolEntry) : Except Fault (Option PoolEntry) :=
  match settling with
  | .keep => .ok (some entry)
  | .forget => .ok (some { entry with measure := .ok .nothing })
  | .clear => .ok (some { entry with measure := .ok (.float (Binary64.nearest 0)) })
  | .lower => do
      let lowered ← Datum.sub (← entry.measure) (.int 1)
      return some { entry with measure := .ok lowered }
  | .remove => .ok none

/-- The entries after the first one of a candidate has been settled. -/
def settle (settling : Settling) (candidate : Datum) :
    List PoolEntry → Except Fault (List PoolEntry)
  | [] => .ok []
  | entry :: rest => do
      if entry.candidate.alike candidate then
        return (← settled settling entry).toList ++ rest
      else return entry :: (← settle settling candidate rest)

/-- Adds a candidate and settles its measure. -/
def commit (rules : PoolRules) (candidate : Datum) : Action Pool Unit := do
  note (.add candidate)
  match rules.refusal with
  | some fault => Action.raise fault
  | none => do
      Action.modify fun pool => { pool with added := candidate :: pool.added }
      let entries ← Action.ofExcept (settle rules.settling candidate (← Action.get).entries)
      Action.modify fun pool => { pool with entries := entries }

/-- The pool as a family. -/
def family (rules : PoolRules) (fuel : Nat) : Family Pool Datum Datum where
  enumerate := enumerate rules fuel
  measure := measure
  commit := commit rules
  describe := Datum.shown

end Pool

end CuttingPlanes
