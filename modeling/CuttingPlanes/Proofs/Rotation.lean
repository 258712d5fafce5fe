import CuttingPlanes.Proofs.Enumeration
import CuttingPlanes.Separator.Choice
import Mathlib.Data.Int.ModEq
import Mathlib.Data.List.Rotate

/-! Turning lists around is an action of the whole numbers, which is trivial on whole turns. -/

namespace CuttingPlanes

variable {σ γ : Type} {items turned : List γ} {first second : Int}

/-- A list as long as another one, whose members are found an offset further around. -/
structure IsTurned (items turned : List γ) (offset : Int) : Prop where
  length_eq : turned.length = items.length
  getElem?_eq : ∀ position < items.length,
    turned[position]? = items[((position + offset) % items.length).toNat]?

namespace IsTurned

/-- There is one way to turn a list by an offset. -/
theorem unique {other : List γ} (one : IsTurned items turned first)
    (also : IsTurned items other first) : turned = other := by
  refine List.ext_getElem? fun position => ?_
  rcases Nat.lt_or_ge position items.length with inside | behind
  · rw [one.getElem?_eq position inside, also.getElem?_eq position inside]
  · rw [List.getElem?_eq_none (one.length_eq.trans_le behind),
      List.getElem?_eq_none (also.length_eq.trans_le behind)]

/-- Only what is left of an offset after whole turns counts. -/
theorem congr (one : IsTurned items turned first)
    (turns : (items.length : Int) ∣ first - second) : IsTurned items turned second where
  length_eq := one.length_eq
  getElem?_eq position inside := by
    have same : (position + second) % items.length = (position + first) % (items.length : Int) :=
      Int.ModEq.add_left _ ((Int.modEq_iff_dvd).2 turns)
    rw [same, one.getElem?_eq position inside]

/-- Offsets of turns that follow one another add up. -/
theorem trans {last : List γ} (one : IsTurned items turned first)
    (next : IsTurned turned last second) : IsTurned items last (first + second) where
  length_eq := next.length_eq.trans one.length_eq
  getElem?_eq position inside := by
    have some : (0 : Int) < items.length := by omega
    have start := Int.emod_nonneg (position + second) some.ne'
    have within := Int.emod_lt_of_pos (position + second) some
    -- The place in the turned list is itself found further around.
    rw [next.getElem?_eq position (one.length_eq ▸ inside), one.length_eq,
      one.getElem?_eq _ (by omega), Int.toNat_of_nonneg start, Int.emod_add_emod,
      add_assoc, add_comm second]

/-- A list has not moved when it has been turned by nothing. -/
theorem refl (items : List γ) : IsTurned items items 0 where
  length_eq := rfl
  getElem?_eq position inside := by
    rw [add_zero, Int.emod_eq_of_lt (by omega) (by omega), Int.toNat_natCast]

end IsTurned

/-- The offset is counted around the list, and then from its first member. -/
theorem rotate_eq (items : List γ) (offset : Int) :
    rotate items offset = items.rotate (offset % items.length).toNat := by
  cases items with
  | nil => simp [rotate]
  | cons item rest =>
    have some : (0 : Int) < (item :: rest).length := by simp
    have within := Int.emod_lt_of_pos offset some
    rw [rotate, List.rotate_eq_drop_append_take (by omega)]

/-- What is rotated is turned by the offset, whatever its sign and size. -/
theorem isTurned_rotate (items : List γ) (offset : Int) :
    IsTurned items (rotate items offset) offset where
  length_eq := by rw [rotate_eq, List.length_rotate]
  getElem?_eq position inside := by
    have some : (items.length : Int) ≠ 0 := by omega
    -- Counting around the list before the sum or after it comes to the same.
    have place : ((position + (offset % items.length).toNat) % items.length : Nat) =
        (position + offset) % (items.length : Int) := by
      push_cast
      rw [Int.toNat_of_nonneg (Int.emod_nonneg offset some), Int.add_emod_emod]
    rw [rotate_eq, List.getElem?_rotate inside, ← place, Int.toNat_natCast]

/-- Whole numbers turn every list. -/
theorem rotateBy_int (items : List γ) (offset : Int) :
    rotateBy items (.int offset) = .ok (rotate items offset) := by
  cases items with
  | nil => simp [rotateBy, rotate]
  | cons item rest => rfl

/-- What is produced on demand is all produced, turned, and listed again. -/
theorem Source.Lists.rotated_ensures {source : Source σ γ} (lists : source.Lists items)
    (offset : Int) {fuel : Nat} (enough : items.length < fuel) (state : σ) :
    Action.Ensures ((Reordering.rotated (.int offset)).apply fuel source) state (fun _ => False)
      fun turned after => turned.Lists (rotate items offset) ∧ after = state := by
  simp only [Reordering.apply, Action.ensures_bind, Action.ensures_pure]
  refine (lists.collect_ensures (.inr enough)).mono ?_
  rintro members after ⟨rfl, rfl⟩
  rw [rotateBy_int, Action.ofExcept_ok, Action.ensures_pure]
  exact ⟨lists_ofList _, rfl⟩

/--
Turning is an action of the whole numbers on lists, in which whole turns do nothing.

A list, the characters of a text, and what a source produces are all turned alike, and the source
goes on to produce what it did.
-/
theorem rotate_acts (items : List γ) (first second : Int) :
    IsTurned items (rotate items first) first ∧
    rotate (rotate items first) second = rotate items (first + second) ∧
    rotate (rotate items first) (-first) = items ∧
    ((items.length : Int) ∣ first - second → rotate items first = rotate items second) ∧
    rotateBy items (.int first) = .ok (rotate items first) ∧
    (∀ given : Datum, given.members >>= (rotateBy · (.int first)) =
      (rotate · first) <$> given.members) ∧
    ∀ source : Source σ γ, source.Lists items → ∀ fuel > items.length, ∀ state,
      Action.Ensures ((Reordering.rotated (.int first)).apply fuel source) state (fun _ => False)
        fun turned after => turned.Lists (rotate items first) ∧ after = state := by
  have once := isTurned_rotate items first
  refine ⟨once, ?_, ?_, fun turns => ?_, rotateBy_int items first, fun given => ?_, ?_⟩
  · exact (once.trans (isTurned_rotate _ second)).unique (isTurned_rotate items _)
  · -- Turned there and back, the list has been turned by nothing.
    have back := once.trans (isTurned_rotate _ (-first))
    rw [add_neg_cancel] at back
    exact back.unique (.refl items)
  · exact (once.congr turns).unique (isTurned_rotate items second)
  · simp only [rotateBy_int]
    rfl
  · exact fun source lists fuel enough state => lists.rotated_ensures first enough state

example : rotate [0, 1, 2, 3] (-5) = [3, 0, 1, 2] := by decide

end CuttingPlanes
