import CuttingPlanes.Proofs.Datum.Rank
import CuttingPlanes.Proofs.Separator.Leading
import Mathlib.Tactic.NormNum

/-! The default comparison ranks all ordinary values that it can compare. -/

namespace CuttingPlanes

/-- Comparing measures in a chosen way, where what the comparison refuses is raised. -/
def Comparison.exceeds {σ : Type} (comparison : Comparison) (best measure : Datum) :
    Action σ Bool :=
  Action.ofExcept (comparison.apply best measure)

/-- Ordinary values of which any two can be compared. -/
structure AllCompared (among : Datum → Prop) : Prop where
  ordinary : ∀ {x}, among x → x.IsOrdinary
  compared : ∀ {x y}, among x → among y → ∃ verdict, Datum.less x y = .ok verdict

theorem isLess_iff {x y : Datum} : isLess x y = true ↔ Datum.less x y = .ok true := by
  unfold isLess Comparison.apply
  split <;> simp_all

namespace AllCompared

variable {among : Datum → Prop} {x y : Datum} (all : AllCompared among)

include all

/-- What is compared is either less or found not to be. -/
theorem isLess_eq_false_iff (first : among x) (second : among y) :
    isLess x y = false ↔ Datum.less x y = .ok false := by
  obtain ⟨verdict, given⟩ := all.compared first second
  rw [← Bool.not_eq_true, isLess_iff, given]
  cases verdict <;> simp

/-- Being less is a strict weak order where everything can be compared. -/
theorem ranks : Ranks isLess among where
  irrefl known := (all.isLess_eq_false_iff known known).2 (all.ordinary known).less_self
  trans first second third below above := isLess_iff.2 ((all.ordinary first).less_trans
    (all.ordinary second) (all.ordinary third) (isLess_iff.1 below) (isLess_iff.1 above))
  tied {x y z} first second third low high under beyond := by
    rw [all.isLess_eq_false_iff first second] at low
    rw [all.isLess_eq_false_iff second first] at high
    rw [all.isLess_eq_false_iff second third] at under
    rw [all.isLess_eq_false_iff third second] at beyond
    -- Values that are tied are compared as one rank, and so is a third one tied with either.
    have level : x.rank? = y.rank? :=
      (all.ordinary first).rank?_eq_of_not_less (all.ordinary second) low high
    have also : y.rank? = z.rank? :=
      (all.ordinary second).rank?_eq_of_not_less (all.ordinary third) under beyond
    exact (all.isLess_eq_false_iff first third).2
      ((all.ordinary first).less_of_rank?_eq (level.trans also))

/-- The default comparison refuses none of the values and leaves the state as it is. -/
theorem comparesInView {σ ν : Type} (view : σ → ν) (kept : Nat → ν) :
    ComparesInView Comparison.less.exceeds view kept among isLess := by
  intro best measure first second position state same
  obtain ⟨verdict, given⟩ := all.compared first second
  have applied : Comparison.less.apply best measure = .ok verdict := given
  rw [Comparison.exceeds, Action.ensures_ofExcept, isLess, applied]
  exact ⟨by cases verdict <;> rfl, same⟩

end AllCompared

/--
The default comparison is a strict weak order on ordinary values any two of which can be compared.

Values that are tied are equal. Numbers of all kinds are compared as the exact numbers they stand
for, and so a search for the greatest violation selects the first of the greatest.
-/
theorem less_isStrictWeakOrder {among : Datum → Prop} (all : AllCompared among) :
    (∀ x, among x → Datum.less x x = .ok false) ∧
    (∀ x y z, among x → among y → among z → Datum.less x y = .ok true →
      Datum.less y z = .ok true → Datum.less x z = .ok true) ∧
    (∀ x y, among x → among y → Datum.less x y = .ok false → Datum.less y x = .ok false →
      (x == y) = true) ∧
    (∀ (x y : Datum) p q, x.place? = some p → y.place? = some q →
      Datum.less x y = .ok (decide (p < q)) ∧ ((x == y) = true ↔ p = q)) ∧
    Ranks isLess among ∧
    ∀ {σ ν γ : Type} {family : Family σ γ Datum} {view : σ → ν} {kept : Nat → ν} {state : σ}
      {entries : List (γ × Datum)} {fuel : Nat},
      (family.Faces view kept state entries fun source =>
        source.GivesAt view kept entries.length (.ok none)) →
      (∀ entry ∈ entries, entry.2 ≠ .nothing → among entry.2) → entries.length < fuel →
      ∀ tally, Action.Meets ((Separator.deepest family Comparison.less.exceeds).select fuel)
        (tally, state)
        (fun found after => Selects isLess entries found ∧
          after.1 = tally.lookedAt entries.length ∧ view after.2 = kept (entries.length + 1))
        fun _ _ => False := by
  refine ⟨fun x known => (all.ordinary known).less_self, ?_, ?_, ?_, all.ranks, ?_⟩
  · intro x y z first second third
    exact (all.ordinary first).less_trans (all.ordinary second) (all.ordinary third)
  · intro x y first second
    exact (all.ordinary first).same_of_not_less (all.ordinary second)
  · intro x y p q one other
    exact ⟨Datum.less_of_place one other, Datum.same_iff_place one other⟩
  · intro σ ν γ family view kept state entries fuel faces known enough tally
    have measured : ∀ entry ∈ entries, Measure.present entry.2 = true → among entry.2 := by
      intro entry member present
      refine known entry member fun absent => ?_
      simp [absent, Measure.present, Datum.isNothing] at present
    exact Separator.select_meets_selects rfl faces (all.comparesInView view kept) all.ranks
      measured enough tally

/-- Lists that begin with numbers next to each other, one of which no double stands for. -/
def neighbour : Fin 3 → Datum
  | 0 => .list [.float (Float.ofBits 0x4340000000000000), .text "a"]
  | 1 => .list [.int (2 ^ 53 + 1)]
  | 2 => .list [.bool true, .list []]

/-- A whole number just above a double is greater, although the double is the nearest one to it. -/
theorem less_isStrictWeakOrder_neighbours :
    let among (value : Datum) := ∃ place, value = neighbour place
    let search := (Separator.deepest (Family.steady [2, 0, 1] neighbour)
      Comparison.less.exceeds).select 4
    AllCompared among ∧ Datum.less (neighbour 2) (neighbour 1) = .ok true ∧
      Datum.less (.float (Float.ofBits 0x4340000000000000)) (.int (2 ^ 53 + 1)) = .ok true ∧
      (search.run (.zero, ())).result = .ok (some 1) ∧
      Selects isLess ([2, 0, 1].map fun place => (place, neighbour place)) (some 1) := by
  intro among search
  have number : Binary64.exact (Float.ofBits 0x4340000000000000) = .finite (2 ^ 53) := by
    decide +kernel
  have verdicts : ∀ i j, Datum.less (neighbour i) (neighbour j) =
      .ok (decide (i = 0 ∧ j = 1 ∨ i = 2 ∧ j ≠ 2)) := by
    decide +kernel
  have all : AllCompared among := by
    constructor
    · rintro x ⟨place, rfl⟩
      match place with
      | 0 =>
        refine .list (List.forall_mem_cons.2 ⟨.float (by simp [number]), ?_⟩)
        exact List.forall_mem_singleton.2 (.text "a")
      | 1 => exact .list (List.forall_mem_singleton.2 (.int _))
      | 2 =>
        refine .list (List.forall_mem_cons.2 ⟨.bool true, ?_⟩)
        exact List.forall_mem_singleton.2 (.list (by simp))
    · rintro x y ⟨first, rfl⟩ ⟨second, rfl⟩
      exact ⟨_, verdicts first second⟩
  obtain ⟨-, trans, -, exactly, -, selects⟩ := less_isStrictWeakOrder all
  have chosen : (search.run (.zero, ())).result = .ok (some 1) := by decide +kernel
  refine ⟨all, ?_, ?_, chosen, ?_⟩
  · exact trans _ _ _ ⟨2, rfl⟩ ⟨0, rfl⟩ ⟨1, rfl⟩ (verdicts 2 0) (verdicts 0 1)
  · have place : (Datum.float (Float.ofBits 0x4340000000000000)).place? =
        some (((2 ^ 53 : ℚ) : WithTop ℚ) : WithBot (WithTop ℚ)) := by
      simp only [Datum.place?, Datum.number?, number, Option.bind_some, Extended.line?]
    have apart : (((2 ^ 53 : ℚ) : WithTop ℚ) : WithBot (WithTop ℚ)) <
        (((2 ^ 53 + 1 : ℤ) : ℚ) : WithTop ℚ) := by
      rw [WithBot.coe_lt_coe, WithTop.coe_lt_coe]
      norm_num
    rw [(exactly _ _ _ _ place rfl).1, decide_eq_true apart]
  · have yields : (Source.ofList [2, 0, 1] : Source Unit (Fin 3)).Yields id () [2, 0, 1] :=
      (Source.lists_ofList [2, 0, 1]).yields id ()
    have faces : (Family.steady [2, 0, 1] neighbour).Faces id (fun _ => ()) ()
        [(2, neighbour 2), (0, neighbour 0), (1, neighbour 1)] fun source =>
          source.GivesAt id (fun _ => ()) 3 (.ok none) :=
      ⟨yields.encounters fun _ _ _ _ => ⟨rfl, rfl⟩, yields.givesAt (by simp), rfl⟩
    have searched : Action.Meets search _ _ _ :=
      selects faces (by simp [among]) (by decide) .zero
    exact (searched.of_ok chosen).1

end CuttingPlanes
