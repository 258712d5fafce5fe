import CuttingPlanes.Proofs.Number.Unpacked

/-! Doubles that are whole numbers: the nearest one, and sums that are not too great. -/

namespace CuttingPlanes.Binary64

open Float.Model (Format UnpackedFloat)
open Float.Model.UnpackedFloat

/-- The greatest number up to which a sum of whole numbers is never rounded up. -/
def steadyLimit : Nat := 2 ^ 53 + 2

/-- A double, taken apart, that is a whole number and not negative. -/
inductive Whole : UnpackedFloat → Nat → Prop
  | zero : Whole (.zero .positive) 0
  /-- The unit of the significand is the double of a place above the least that can matter. -/
  | finite {significand place n : Nat} (positive : 0 < significand) (lower : 2 ^ 52 ≤ significand)
      (upper : significand < 2 ^ 53) (value : significand * 2 ^ place = n * 2 ^ 52)
      (fits : place ≤ 53) : Whole (.finite .positive significand (place - 52) positive) n

/-- Zeros at the end make a number longer. -/
theorem log2_mul_two_pow {n : Nat} (nonzero : n ≠ 0) (count : Nat) :
    (n * 2 ^ count).log2 = n.log2 + count := by
  refine (Nat.log2_eq_iff (by positivity)).2 ⟨?_, ?_⟩
  · rw [pow_add]
    exact Nat.mul_le_mul_right _ (Nat.log2_self_le nonzero)
  · rw [Nat.add_right_comm, pow_add]
    exact Nat.mul_lt_mul_of_pos_right Nat.lt_log2_self (by positivity)

/-- A significand and a place of a whole number have the length of the number together. -/
theorem log2_add_place {significand place n : Nat} (positive : 0 < significand)
    (value : significand * 2 ^ place = n * 2 ^ 52) :
    significand.log2 + place = n.log2 + 52 := by
  have nonzero : n ≠ 0 := by
    rintro rfl
    have : 0 < significand * 2 ^ place := by positivity
    omega
  rw [← log2_mul_two_pow positive.ne', value, log2_mul_two_pow nonzero]

/-- The exponent that a whole number is brought to depends on its length alone. -/
theorem targetExponent_eq {significand place n : Nat} (positive : 0 < significand)
    (value : significand * 2 ^ place = n * 2 ^ 52) :
    Format.binary64.targetExponent (Float.Model.totalExponent significand (place - 52)) =
      n.log2 - 52 := by
  have length := log2_add_place positive value
  have exponent : Float.Model.totalExponent significand (place - 52) = n.log2 + 1 := by
    rw [Float.Model.totalExponent]
    omega
  have least : Format.binary64.minExponent = -1074 := rfl
  have bits : Format.binary64.mantissaBits = 53 := rfl
  rw [exponent, Format.targetExponent, least, bits]
  omega

/-- Zeros at the end of a significand are shifted out without a rest. -/
theorem shiftRight_mul_two_pow (significand count : Nat) :
    (ExtendedMantissa.mk (significand * 2 ^ count) false false) >>> count =
      ⟨significand, false, false⟩ := by
  show Nat.repeat ExtendedMantissa.shiftRightOne count _ = _
  induction count generalizing significand with
  | zero => rw [pow_zero, mul_one]; rfl
  | succ count ih =>
    rw [Nat.repeat, pow_succ', ← mul_assoc, ih (significand * 2)]
    simp [ExtendedMantissa.shiftRightOne]

/-- A significand of full length is kept as it is. -/
theorem shiftToTargetExponent_eq {significand : Nat} {exponent : Int}
    (lower : 2 ^ 52 ≤ significand) (upper : significand < 2 ^ 53) (low : -1074 ≤ exponent) :
    shiftToTargetExponent .binary64 significand exponent .exact =
      (ExtendedMantissa.mk significand false false, exponent) := by
  have length : significand.log2 = 52 := (Nat.log2_eq_iff (by omega)).2 ⟨lower, upper⟩
  have least : Format.binary64.minExponent = -1074 := rfl
  have bits : Format.binary64.mantissaBits = 53 := rfl
  have target : Format.binary64.targetExponent
      (Float.Model.totalExponent significand exponent) = exponent := by
    rw [Format.targetExponent, Float.Model.totalExponent, length, least, bits]
    omega
  rw [shiftToTargetExponent, target, shiftToExponent, sub_self]
  exact Prod.ext rfl (add_zero exponent)

/-- A significand that is rounded to one of full length becomes that one. -/
theorem roundWithAccuracy_eq {significand rounded : Nat} {exponent target : Int}
    {shifted : ExtendedMantissa}
    (shift : shiftToTargetExponent .binary64 significand exponent .exact = (shifted, target))
    (round : shifted.roundedMantissa = rounded) (lower : 2 ^ 52 ≤ rounded)
    (upper : rounded < 2 ^ 53) (low : -1074 ≤ target) (positive : 0 < rounded) :
    roundWithAccuracy .binary64 .positive significand exponent .exact =
      .finite .positive rounded target positive := by
  rw [roundWithAccuracy, shift]
  dsimp only
  rw [round, shiftToTargetExponent_eq lower upper low]
  dsimp only
  rw [dif_neg positive.ne']

/-- One more place makes an odd number lose its last bit, which is a half. -/
theorem shiftRight_mul_two_pow_succ (significand count : Nat) :
    (ExtendedMantissa.mk (significand * 2 ^ count) false false) >>> (count + 1) =
      ⟨significand / 2, significand % 2 != 0, false⟩ :=
  congrArg ExtendedMantissa.shiftRightOne (shiftRight_mul_two_pow significand count)

/-- The significand of a whole number of at most 54 bits; the last one of 54 has no place in it. -/
def significandOf (n : Nat) : Nat := if n.log2 ≤ 52 then n * 2 ^ (52 - n.log2) else n / 2

/-- The significand of a steady number has full length and stands for no greater number. -/
structure Fits (n significand : Nat) : Prop where
  lower : 2 ^ 52 ≤ significand
  upper : significand < 2 ^ 53
  length : n.log2 ≤ 53
  value : ∃ k ≤ n, significand * 2 ^ n.log2 = k * 2 ^ 52

section Steady

variable {n : Nat} (nonzero : n ≠ 0) (steady : n ≤ steadyLimit)

include nonzero steady

/-- A steady number is short, or it is one of the three from the first of 54 bits on. -/
theorem short_or_long : n.log2 ≤ 52 ∨ n.log2 = 53 ∧ (n = 2 ^ 53 ∨ n = 2 ^ 53 + 1 ∨ n = 2 ^ 53 + 2) := by
  have low := Nat.log2_self_le nonzero
  rw [steadyLimit] at steady
  rcases le_or_gt n.log2 52 with short | long
  · exact .inl short
  · have length : n.log2 = 53 := by
      by_contra other
      have longer : 2 ^ 54 ≤ 2 ^ n.log2 := Nat.pow_le_pow_right (by decide) (by omega)
      omega
    rw [length] at low
    exact .inr ⟨length, by omega⟩

theorem fits_significandOf : Fits n (significandOf n) := by
  have low := Nat.log2_self_le nonzero
  have high := Nat.lt_log2_self (n := n)
  unfold significandOf
  rcases short_or_long nonzero steady with short | ⟨long, near⟩
  · have full : 2 ^ n.log2 * 2 ^ (52 - n.log2) = 2 ^ 52 := by
      rw [← pow_add, Nat.add_sub_cancel' short]
    rw [if_pos short]
    refine ⟨?_, ?_, by omega, n, le_rfl, ?_⟩
    · rw [← full]
      exact Nat.mul_le_mul_right _ low
    · rw [pow_succ'] at high
      have longer := Nat.mul_lt_mul_of_pos_right high (show 0 < 2 ^ (52 - n.log2) by positivity)
      rwa [mul_assoc, full] at longer
    · rw [mul_assoc, ← pow_add, Nat.sub_add_cancel short]
  · rw [if_neg (by omega)]
    exact ⟨by omega, by omega, long.le, 2 * (n / 2), by omega, by rw [long]; ring⟩

/-- The arithmetic rounds what stands for a steady number to its significand. -/
theorem roundedMantissa_eq {significand place : Nat}
    (value : significand * 2 ^ place = n * 2 ^ 52) (short : place ≤ n.log2) :
    ((ExtendedMantissa.mk significand false false) >>> (n.log2 - place)).roundedMantissa =
      significandOf n := by
  -- Zeros at the end are all that the significand has to spare.
  have spare (within : place ≤ 52) : significand = n * 2 ^ (52 - place) := by
    refine Nat.eq_of_mul_eq_mul_right (show 0 < 2 ^ place by positivity) ?_
    rw [value, mul_assoc, ← pow_add, Nat.sub_add_cancel within]
  unfold significandOf
  rcases short_or_long nonzero steady with exact | ⟨long, near⟩
  · have shifted : significand = n * 2 ^ (52 - n.log2) * 2 ^ (n.log2 - place) := by
      rw [spare (short.trans exact), mul_assoc, ← pow_add]
      congr 2
      omega
    rw [if_pos exact, shifted, shiftRight_mul_two_pow]
    rfl
  · rw [long] at short ⊢
    have shifted : (ExtendedMantissa.mk significand false false) >>> (53 - place) =
        ⟨n / 2, n % 2 != 0, false⟩ := by
      rcases short.eq_or_lt with rfl | within
      · obtain rfl : n = significand * 2 := by omega
        rw [Nat.mul_div_cancel _ two_pos, Nat.mul_mod_left]
        rfl
      · have within : place ≤ 52 := by omega
        rw [spare within, show 53 - place = 52 - place + 1 by omega, shiftRight_mul_two_pow_succ]
    rw [shifted, if_neg (by decide)]
    -- Of the three numbers only the second one is odd, and its half is even.
    obtain rfl | rfl | rfl := near <;> rfl

end Steady

/-- A steady whole number is rounded to one that is no greater. -/
theorem whole_roundWithAccuracy {significand place n : Nat} (positive : 0 < significand)
    (value : significand * 2 ^ place = n * 2 ^ 52) (short : place ≤ n.log2)
    (steady : n ≤ steadyLimit) :
    ∃ k ≤ n, Whole (roundWithAccuracy .binary64 .positive significand (place - 52) .exact) k := by
  have nonzero : n ≠ 0 := by
    rintro rfl
    have : 0 < significand * 2 ^ place := by positivity
    omega
  obtain ⟨lower, upper, length, k, fewer, whole⟩ := fits_significandOf nonzero steady
  have round := roundedMantissa_eq nonzero steady value short
  have count : ((n.log2 : Int) - 52 - (place - 52)).toNat = n.log2 - place := by omega
  have shift : shiftToTargetExponent .binary64 significand (place - 52) .exact =
      ((ExtendedMantissa.mk significand false false) >>> (n.log2 - place), (n.log2 : Int) - 52) := by
    rw [shiftToTargetExponent, targetExponent_eq positive value, shiftToExponent, count]
    exact Prod.ext rfl (by simp only; omega)
  have kept : 0 < significandOf n := by omega
  rw [roundWithAccuracy_eq shift round lower upper (by omega) kept]
  exact ⟨k, fewer, .finite kept lower upper whole length⟩

theorem whole_round {significand place n : Nat} (positive : 0 < significand)
    (value : significand * 2 ^ place = n * 2 ^ 52) (steady : n ≤ steadyLimit) :
    ∃ k ≤ n, Whole (UnpackedFloat.round .binary64 .positive significand (place - 52)) k := by
  have count : ((place : Int) - 52 - (n.log2 - 52)).toNat = place - n.log2 := by omega
  have exponent : (place : Int) - 52 - (place - n.log2 : Nat) =
      (place - (place - n.log2) : Nat) - 52 := by omega
  have longer : significand * 2 ^ (place - n.log2) * 2 ^ (place - (place - n.log2)) =
      n * 2 ^ 52 := by
    rw [mul_assoc, ← pow_add, Nat.add_sub_cancel' (Nat.sub_le _ _), value]
  -- A significand that is too short is made longer first.
  rw [UnpackedFloat.round, targetExponent_eq positive value, decreaseExponent, count]
  dsimp only
  rw [exponent, Nat.shiftLeft_eq]
  exact whole_roundWithAccuracy (by positivity) longer (by omega) steady

theorem normalize_natCast {significand : Nat} (positive : 0 < significand) (exponent : Int)
    (sign : Sign) :
    UnpackedFloat.normalize .binary64 significand exponent sign =
      UnpackedFloat.round .binary64 .positive significand exponent := by
  have above : compare (significand : Int) 0 = .gt := Int.compare_eq_gt.2 (by omega)
  rw [UnpackedFloat.normalize, above]
  rfl

/-- The sum of two whole numbers is whole, and no greater than it should be where it is steady. -/
theorem Whole.add {left right : UnpackedFloat} {a b : Nat} (first : Whole left a)
    (second : Whole right b) (steady : a + b ≤ steadyLimit) :
    ∃ k ≤ a + b, Whole (UnpackedFloat.add .binary64 left right) k := by
  cases first with
  | zero =>
    rw [Nat.zero_add]
    cases second with
    | zero => exact ⟨0, le_rfl, .zero⟩
    | finite positive lower upper value fits =>
      exact ⟨b, le_rfl, .finite positive lower upper value fits⟩
  | @finite significand place _ positive lower upper value fits =>
    cases second with
    | zero => exact ⟨a, le_rfl, .finite positive lower upper value fits⟩
    | @finite other further _ also _ _ same _ =>
      -- Both are brought to the lower of their places.
      have least : min ((place : Int) - 52) (further - 52) = (min place further : Nat) - 52 := by
        omega
      have firstCount : ((place : Int) - 52 - ((min place further : Nat) - 52)).toNat =
          place - min place further := by omega
      have secondCount : ((further : Int) - 52 - ((min place further : Nat) - 52)).toNat =
          further - min place further := by omega
      have sum : (significand * 2 ^ (place - min place further) +
          other * 2 ^ (further - min place further)) * 2 ^ min place further =
            (a + b) * 2 ^ 52 := by
        rw [add_mul, mul_assoc, mul_assoc, ← pow_add, ← pow_add,
          Nat.sub_add_cancel (min_le_left _ _), Nat.sub_add_cancel (min_le_right _ _), value, same,
          add_mul]
      rw [UnpackedFloat.add]
      dsimp only
      rw [least, decreaseExponent, decreaseExponent, firstCount, secondCount, Nat.shiftLeft_eq,
        Nat.shiftLeft_eq]
      dsimp only [Sign.apply]
      rw [← Nat.cast_add, normalize_natCast (by positivity)]
      exact whole_round (by positivity) sum steady

/-- A whole number is what it is after it has been packed. -/
theorem Whole.unpack_pack {taken : UnpackedFloat} {n : Nat} (whole : Whole taken n) :
    (Float.Model.pack taken).unpack = taken := by
  cases whole with
  | zero => rfl
  | finite positive lower upper value fits =>
    exact Binary64.unpack_pack positive lower upper (by omega) (by omega)

/-- A double that is a whole number and not negative. -/
def IsWhole (x : Float) (n : Nat) : Prop := Whole x.toModel.unpack n

theorem isWhole_zero : IsWhole (nearest 0) 0 := by
  have unpacked : (nearest 0).toModel.unpack = .zero .positive := rfl
  rw [IsWhole, unpacked]
  exact .zero

theorem IsWhole.add {x y : Float} {a b : Nat} (first : IsWhole x a) (second : IsWhole y b)
    (steady : a + b ≤ steadyLimit) : ∃ k ≤ a + b, IsWhole (x + y) k := by
  obtain ⟨k, fewer, whole⟩ := Whole.add first second steady
  refine ⟨k, fewer, ?_⟩
  have unpacked : (x + y).toModel.unpack =
      UnpackedFloat.add .binary64 x.toModel.unpack y.toModel.unpack := whole.unpack_pack
  rw [IsWhole, unpacked]
  exact whole

theorem scaled_zero (exponent : Int) : scaled 0 exponent = 0 := by
  rw [scaled]
  split
  · simp
  · exact Rat.zero_mkRat _

/-- A whole number is its significand, scaled. -/
theorem scaled_eq {significand place n : Nat} (value : significand * 2 ^ place = n * 2 ^ 52) :
    scaled significand (place - 52) = n := by
  by_cases large : 52 ≤ place
  · have whole : significand * 2 ^ (place - 52) = n := by
      refine Nat.eq_of_mul_eq_mul_right (show 0 < 2 ^ 52 by positivity) ?_
      rw [mul_assoc, ← pow_add, Nat.sub_add_cancel large, value]
    have exponent : ((place : Int) - 52).toNat = place - 52 := by omega
    rw [scaled, if_pos (by omega), exponent, Nat.pow_eq, whole]
  · have whole : significand = n * 2 ^ (52 - place) := by
      refine Nat.eq_of_mul_eq_mul_right (show 0 < 2 ^ place by positivity) ?_
      rw [value, mul_assoc, ← pow_add, Nat.sub_add_cancel (by omega)]
    have exponent : (-((place : Int) - 52)).toNat = 52 - place := by omega
    rw [scaled, if_neg (by omega), exponent, Nat.pow_eq, whole, Rat.mkRat_eq_div]
    push_cast
    exact mul_div_cancel_right₀ _ (by positivity)

/-- A double that is a whole number stands for that number. -/
theorem IsWhole.exact_eq {x : Float} {n : Nat} (whole : IsWhole x n) :
    exact x = .finite n := by
  rw [exact, form_eq]
  rw [IsWhole] at whole
  generalize x.toModel.unpack = taken at whole
  cases whole with
  | zero =>
    rw [Form.ofUnpacked]
    dsimp only
    rw [scaled_zero]
    rfl
  | @finite significand place _ positive lower upper value fits =>
    rw [Form.ofUnpacked]
    dsimp only
    rw [scaled_eq value]
    rfl

theorem roundQuotient_one (numerator : Nat) : roundQuotient numerator 1 = numerator := by
  simp [roundQuotient, Nat.mod_one]

/-- The highest power of two that a whole number reaches is its length. -/
theorem leadingExponent_one {n : Nat} (nonzero : n ≠ 0) : leadingExponent n 1 = n.log2 := by
  have one : Nat.log2 1 = 0 := rfl
  have reached := Nat.log2_self_le nonzero
  rw [leadingExponent, one]
  simp [reached]

section Nearest

variable {n : Nat} (nonzero : n ≠ 0) (steady : n ≤ steadyLimit)

include nonzero steady

/-- A steady number is rounded to its significand where it is made a double, too. -/
theorem roundScaled_eq : roundScaled n 1 (n.log2 - 52) = significandOf n := by
  unfold significandOf roundScaled
  rcases short_or_long nonzero steady with short | ⟨long, near⟩
  · rw [if_pos short]
    rcases short.eq_or_lt with full | shorter
    · rw [full]
      exact (roundQuotient_one n).trans (mul_one n).symm
    · have places : (-((n.log2 : Int) - 52)).toNat = 52 - n.log2 := by omega
      rw [if_neg (by omega), places, roundQuotient_one, Nat.pow_eq]
  · rw [long]
    -- Of the three numbers only the second one is odd, and its half is even.
    obtain rfl | rfl | rfl := near <;> rfl

theorem nearestBits_one : nearestBits n 1 = (n.log2 + 1022) * 2 ^ 52 + significandOf n := by
  obtain ⟨-, upper, length, -⟩ := fits_significandOf nonzero steady
  have exponent : max ((n.log2 : Int) - 52) leastExponent = n.log2 - 52 := by
    rw [leastExponent]
    omega
  have field : ((n.log2 : Int) - 52 - leastExponent).toNat = n.log2 + 1022 := by
    rw [leastExponent]
    omega
  rw [nearestBits, if_neg nonzero, leadingExponent_one nonzero]
  dsimp only
  rw [exponent, roundScaled_eq nonzero steady, field, Nat.pow_eq]
  refine Nat.min_eq_right ?_
  show _ ≤ 2047 * 2 ^ 52
  omega

end Nearest

/-- A steady whole number is near a double that is whole and no greater. -/
theorem exists_ofInt? {n : Nat} (steady : n ≤ steadyLimit) :
    ∃ x, ofInt? n = some x ∧ ∃ k ≤ n, IsWhole x k := by
  rcases eq_or_ne n 0 with rfl | nonzero
  · exact ⟨nearest 0, rfl, 0, le_rfl, isWhole_zero⟩
  · obtain ⟨lower, upper, length, k, fewer, value⟩ := fits_significandOf nonzero steady
    have bits := nearestBits_one nonzero steady
    have finite : nearestBits n 1 ≠ infinityBits := by
      rw [bits]
      show _ ≠ 2047 * 2 ^ 52
      omega
    have kept : 0 < significandOf n := by omega
    refine ⟨nearest n, ?_, k, fewer, ?_⟩
    · rw [ofInt?, Int.natAbs_natCast, if_neg finite]
      rfl
    · have near : nearest n = Float.ofBits (UInt64.ofNat (nearestBits n 1)) := by
        rw [nearest, Rat.num_natCast, Rat.den_natCast, Int.natAbs_natCast,
          if_neg (Int.natCast_nonneg n).not_gt]
      have shifted : ((n.log2 + 1022 : Nat) : Int) - 1074 = n.log2 - 52 := by omega
      rw [IsWhole, near, bits, unpack_ofBits kept lower upper (by omega), shifted]
      exact .finite kept lower upper value length

end CuttingPlanes.Binary64
