import CuttingPlanes.Datum.Order
import Mathlib.Algebra.Order.Ring.Rat
import Mathlib.Data.Rat.Cast.Defs

/-! Values as keys: which of them can be one, and which of them are the same one. -/

namespace CuttingPlanes

/-- Two numbers are the same when they are equal, and what is no number is the same as nothing. -/
theorem Extended.same_iff {left right : Extended} :
    left.same right = true ↔ left = right ∧ left ≠ .undefined := by
  cases left with
  | undefined => simp [same, compare?]
  | infinite negative =>
    cases right with
    | undefined => simp [same, compare?]
    | finite value => cases negative <;> simp [same, compare?]
    | infinite other => cases negative <;> cases other <;> simp [same, compare?]
  | finite value =>
    cases right with
    | undefined => simp [same, compare?]
    | infinite negative => cases negative <;> simp [same, compare?]
    | finite other =>
      -- Exactly one of the three ways to stand holds.
      rcases lt_trichotomy value other with below | equal | above
      · simp [same, compare?, below, below.ne]
      · simp [same, compare?, equal]
      · simp [same, compare?, above, above.not_gt, above.ne']

namespace Datum

/-- What makes a value the key that it is. -/
inductive Identity where
  | nothing
  | number (value : Extended)
  /-- A real that is no number, told from others by how it is stored. -/
  | stored (bits : UInt64)
  /-- A real that is no number, told from others by its mark. -/
  | marked (mark : Nat)
  | text (value : String)

/-- The identity of a double: its number, or how it is stored where it is none. -/
def identityOf (value : Float) : Identity :=
  match Binary64.exact value with
  | .undefined => .stored value.toBits
  | number => .number number

/-- The identity of a value that can be a key. -/
def identity? : Datum → Option Identity
  | nothing => some .nothing
  | bool value => some (.number (.finite (if value then 1 else 0)))
  | int value => some (.number (.finite value))
  | float value => some (identityOf value)
  | undefined mark => some (.marked mark)
  | text value => some (.text value)
  | list _ => none
  | object _ => none

/-- A value can be a key when it has an identity. -/
theorem checkKey_eq_ok_iff {value : Datum} :
    value.checkKey = .ok () ↔ value.identity?.isSome = true := by
  cases value <;> simp [checkKey, identity?]

/-- Doubles that are stored alike stand for the same number. -/
theorem exact_congr {left right : Float} (same : left.toBits = right.toBits) :
    Binary64.exact left = Binary64.exact right := by
  unfold Binary64.exact Binary64.form
  rw [same]

/-- A double that stands for a number is that number as a key. -/
@[simp] theorem number_eq_identityOf {value : Float} {number : Extended} :
    .number number = identityOf value ↔ number = Binary64.exact value ∧ number ≠ .undefined := by
  unfold identityOf
  split
  case h_1 none => simp [none]
  case h_2 some => exact ⟨fun equal => ⟨Identity.number.inj equal, Identity.number.inj equal ▸ some⟩,
    fun equal => congrArg Identity.number equal.1⟩

@[simp] theorem identityOf_eq_number {value : Float} {number : Extended} :
    identityOf value = .number number ↔ Binary64.exact value = number ∧ number ≠ .undefined := by
  rw [eq_comm, number_eq_identityOf, eq_comm (a := number)]

/-- A double is never the same key as a value of another kind that is no number. -/
theorem identityOf_ne (value : Float) :
    identityOf value ≠ .nothing ∧ (∀ mark, identityOf value ≠ .marked mark) ∧
      ∀ text, identityOf value ≠ .text text := by
  unfold identityOf
  split <;> simp

/-- Two doubles are the same key when they are stored alike or stand for the same number. -/
theorem identityOf_eq_iff {left right : Float} :
    identityOf left = identityOf right ↔
      left.toBits = right.toBits ∨
        (Binary64.exact left).same (Binary64.exact right) = true := by
  rw [Extended.same_iff]
  constructor
  · intro equal
    unfold identityOf at equal
    -- Either both stand for a number, or both are told apart by how they are stored.
    split at equal <;> split at equal
    · exact .inl (Identity.stored.inj equal)
    · cases equal
    · cases equal
    · exact .inr ⟨Identity.number.inj equal, by assumption⟩
  · rintro (alike | ⟨equal, number⟩)
    · rw [identityOf, identityOf, exact_congr alike, alike]
    · exact (identityOf_eq_number.2 ⟨rfl, number⟩).trans
        (number_eq_identityOf.2 ⟨equal, number⟩)

/-- A value is equal to one that can be a key when both have the same identity. -/
theorem same_iff {left right : Datum} (usable : right.checkKey = .ok ()) :
    same left right = true ↔ left.identity? = right.identity? := by
  -- Kinds without numbers are the same only among themselves, and numbers are compared.
  cases left with
  | float value =>
    have apart := identityOf_ne value
    cases right with
    | float other => simp [same, identity?, identityOf_eq_iff]
    | _ => simp_all +contextual [same, identity?, number?, checkKey, Extended.same_iff]
  | _ =>
    cases right with
    | float other =>
      obtain ⟨nothing, marked, text⟩ := identityOf_ne other
      have marked mark := (marked mark).symm
      have text content := (text content).symm
      simp_all [same, identity?, number?, Extended.same_iff, nothing.symm]
    | _ => simp_all [same, identity?, number?, checkKey, Extended.same_iff]

end Datum

end CuttingPlanes
