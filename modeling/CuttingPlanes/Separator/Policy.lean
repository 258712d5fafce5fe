import CuttingPlanes.Datum.Text

/-! The three ways of choosing a violated candidate, and how they are named. -/

namespace CuttingPlanes

/-- Which violated candidate a separator takes. -/
inductive Policy where
  /-- The one whose measure is greatest. -/
  | deepest
  /-- The first one met. -/
  | first
  /-- The first one met from a random place on. -/
  | shuffled
  deriving DecidableEq, Repr

namespace Policy

/-- The short name of a policy. -/
def word : Policy → String
  | deepest => "max"
  | first => "first"
  | shuffled => "random"

/-- The name of a policy in reports. -/
def label (policy : Policy) : String := policy.word ++ "_violated"

/-- The name of a separator of the policy where its counters are shown. -/
def title : Policy → String
  | deepest => "MaxViolatedOracle"
  | first => "FirstViolatedOracle"
  | shuffled => "RandomViolatedOracle"

/-- The ending that a policy's name may carry. -/
def ending : List Char := "_violated".toList

/-- A name in small letters, with underscores for hyphens and without one such ending. -/
def normal (name : String) : String :=
  let cs := name.toList.map fun c => if c = '-' then '_' else c.toLower
  String.ofList (if ending.isSuffixOf cs then cs.take (cs.length - ending.length) else cs)

/-- The policy of a name; letters outside the plain alphabet never stand for a name's letter. -/
def ofName? (name : String) : Option Policy :=
  [deepest, first, shuffled].find? fun policy => policy.word == normal name

/-- The policy that a value names. -/
def ofDatum : Datum → Except Fault Policy
  | .text name =>
      match ofName? name with
      | some policy => .ok policy
      | none => .error (.unknownPolicy (Text.quoted name))
  | value => .error (.noMember value.kind "lower")

end Policy

end CuttingPlanes
