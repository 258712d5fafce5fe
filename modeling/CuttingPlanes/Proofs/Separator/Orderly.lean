import CuttingPlanes.Proofs.Separator.History
import Mathlib.Data.Finset.Dedup
import Mathlib.Data.Finset.Card

/-! Histories in which every addition was called for, and how long they get when additions last. -/

namespace CuttingPlanes

variable {σ ρ γ μ : Type}

namespace Happening

/-- A candidate has been given a measure that is regarded, since the last addition. -/
def CalledFor (regards : μ → Bool) (candidate : γ) : List (Happening γ μ) → Prop
  | [] => False
  | solved :: rest => CalledFor regards candidate rest
  | measured other measure :: rest =>
      (other = candidate ∧ regards measure = true) ∨ CalledFor regards candidate rest
  | added _ :: _ => False

/-- Every candidate that was added is among some, and was called for. -/
def Orderly (regards : μ → Bool) (among : γ → Prop) : List (Happening γ μ) → Prop
  | [] => True
  | solved :: rest => Orderly regards among rest
  | measured _ _ :: rest => Orderly regards among rest
  | added candidate :: rest =>
      (among candidate ∧ CalledFor regards candidate rest) ∧ Orderly regards among rest

/-- No candidate that was added has been given a measure that is regarded later on. -/
def Lasting (regards : μ → Bool) (history : List (Happening γ μ)) : Prop :=
  history.Pairwise fun later earlier => ∀ candidate measure,
    earlier = added candidate → later = measured candidate measure → regards measure = false

variable {regards : μ → Bool} {among : γ → Prop} {history : List (Happening γ μ)} {candidate : γ}

theorem mem_additions : candidate ∈ additions history ↔ added candidate ∈ history := by
  simp only [additions, List.mem_filterMap]
  -- Nothing but an addition adds a candidate.
  refine ⟨?_, fun member => ⟨_, member, rfl⟩⟩
  rintro ⟨_ | _ | _, member, ⟨⟩⟩
  exact member

/-- A candidate that is called for has not been added before, where additions last. -/
theorem CalledFor.notMem (called : CalledFor regards candidate history)
    (lasting : Lasting regards history) : candidate ∉ additions history := by
  -- The call is later than any addition in the rest of the history.
  induction history with
  | nil => exact called.elim
  | cons latest rest ih =>
    obtain ⟨later, earlier⟩ := List.pairwise_cons.1 lasting
    cases latest with
    | solved => exact ih called earlier
    | added other => exact called.elim
    | measured other measure =>
      rcases called with ⟨rfl, regarded⟩ | called
      · intro before
        have unregarded := later _ (mem_additions.1 before) other measure rfl rfl
        exact Bool.noConfusion (regarded.symm.trans unregarded)
      · exact ih called earlier

namespace Orderly

/-- Nothing is added twice where additions last. -/
theorem nodup (orderly : Orderly regards among history) (lasting : Lasting regards history) :
    (additions history).Nodup := by
  induction history with
  | nil => exact List.nodup_nil
  | cons latest rest ih =>
    have earlier := (List.pairwise_cons.1 lasting).2
    cases latest with
    | solved => exact ih orderly earlier
    | measured other measure => exact ih orderly earlier
    | added candidate =>
      -- It was called for, which an earlier addition of it would have ruled out.
      exact List.nodup_cons.2 ⟨orderly.1.2.notMem earlier, ih orderly.2 earlier⟩

/-- Whatever was added is among those that may be. -/
theorem among_of_mem (orderly : Orderly regards among history)
    (member : candidate ∈ additions history) : among candidate := by
  induction history with
  | nil => exact absurd member List.not_mem_nil
  | cons latest rest ih =>
    cases latest with
    | solved => exact ih orderly member
    | measured other measure => exact ih orderly member
    | added other =>
      rcases List.mem_cons.1 member with rfl | member
      · exact orderly.1.1
      · exact ih orderly.2 member

/-- No more is added than there is, where additions last. -/
theorem length_le_card {candidates : Finset γ} (orderly : Orderly regards (· ∈ candidates) history)
    (lasting : Lasting regards history) : (additions history).length ≤ candidates.card := by
  -- A list without repetitions is no longer than one that holds all its members.
  have subset : additions history ⊆ candidates.toList := fun candidate member =>
    Finset.mem_toList.2 (orderly.among_of_mem member)
  have shorter := (List.subperm_of_subset (orderly.nodup lasting) subset).length_le
  rwa [Finset.length_toList] at shorter

end Orderly

end Happening

end CuttingPlanes
