import CuttingPlanes.Number.Binary64
import Mathlib

/-! Doubles taken apart: what their bits say, and what the arithmetic on them reads and writes. -/

namespace CuttingPlanes.Binary64

open Float.Model (Format UnpackedFloat)
open Float.Model.UnpackedFloat

/-- The fields of a double that has been taken apart by the arithmetic. -/
def Form.ofUnpacked : UnpackedFloat → Form
  | .infinity sign => .infinite (sign == .negative)
  | .notANumber => .undefined
  | .zero sign => .finite (sign == .negative) 0 leastExponent
  | .finite sign significand exponent _ => .finite (sign == .negative) significand exponent

section Fields

variable (bits : BitVec 64)

/-- The exponent stands above the fraction. -/
theorem toNat_unpackExponent :
    (@unpackExponent .binary64 bits).toNat = bits.toNat / 2 ^ 52 % 2 ^ 11 := by
  simp [unpackExponent, BitVec.extractLsb_toNat, Nat.shiftRight_eq_div_pow]

theorem toNat_unpackMantissa :
    (@unpackMantissa .binary64 bits).toNat = bits.toNat % 2 ^ 52 := by
  simp [unpackMantissa, BitVec.extractLsb_toNat]

theorem ofBitVec_unpackSign :
    (Sign.ofBitVec (@unpackSign .binary64 bits) == .negative) =
      decide (2 ^ 63 ≤ bits.toNat) := by
  have same : (@unpackSign .binary64 bits).toNat = bits.toNat / 2 ^ 63 := by
    have bound := bits.isLt
    simp only [unpackSign, BitVec.toNat_cast, BitVec.extractLsb_toNat, Nat.shiftRight_eq_div_pow]
    omega
  have plain : @unpackSign .binary64 bits = 0#1 ↔ bits.toNat < 2 ^ 63 := by
    rw [← BitVec.toNat_inj, same]
    simp only [BitVec.toNat_ofNat]
    omega
  unfold Sign.ofBitVec
  by_cases above : 2 ^ 63 ≤ bits.toNat
  · rw [if_neg fun low => absurd (plain.1 low) (Nat.not_lt.2 above), decide_eq_true above]
    rfl
  · rw [if_pos (plain.2 (Nat.lt_of_not_le above)), decide_eq_false above]
    rfl

end Fields

/-- The hidden bit stands above a fraction. -/
theorem toNat_hidden (fraction : BitVec 52) :
    (1#1 ++ fraction).toNat = 2 ^ 52 + fraction.toNat := by
  rw [BitVec.toNat_append, ← Nat.shiftLeft_add_eq_or_of_lt fraction.isLt]
  rfl

/-- The fields of a double are those of its bits. -/
theorem form_of_bits (x : Float) {bits : BitVec 64} (same : x.toModel.toBits.toBitVec = bits) :
    form x =
      if bits.toNat / 2 ^ 52 % 2 ^ 11 = 2 ^ 11 - 1 then
        if bits.toNat % 2 ^ 52 = 0 then .infinite (decide (2 ^ 63 ≤ bits.toNat)) else .undefined
      else if bits.toNat / 2 ^ 52 % 2 ^ 11 = 0 then
        .finite (decide (2 ^ 63 ≤ bits.toNat)) (bits.toNat % 2 ^ 52) (-1074)
      else .finite (decide (2 ^ 63 ≤ bits.toNat)) (2 ^ 52 + bits.toNat % 2 ^ 52)
        ((bits.toNat / 2 ^ 52 % 2 ^ 11 : Nat) - 1 + -1074) := by
  subst same
  rfl

/-- The fields of a double are those that the arithmetic takes it apart into. -/
theorem form_eq (x : Float) : form x = .ofUnpacked x.toModel.unpack := by
  obtain ⟨bits, same⟩ : ∃ bits, x.toModel.toBits.toBitVec = bits := ⟨_, rfl⟩
  have exponent := toNat_unpackExponent bits
  have fraction := toNat_unpackMantissa bits
  have sign := ofBitVec_unpackSign bits
  have greatest : @unpackExponent .binary64 bits = -1#11 ↔
      bits.toNat / 2 ^ 52 % 2 ^ 11 = 2 ^ 11 - 1 := by
    rw [← BitVec.toNat_inj, exponent]
    rfl
  have least : @unpackExponent .binary64 bits = 0#11 ↔
      bits.toNat / 2 ^ 52 % 2 ^ 11 = 0 := by
    rw [← BitVec.toNat_inj, exponent]
    rfl
  have none : @unpackMantissa .binary64 bits = 0#52 ↔ bits.toNat % 2 ^ 52 = 0 := by
    rw [← BitVec.toNat_inj, fraction]
    rfl
  have significand : (1#1 ++ @unpackMantissa .binary64 bits).toNat =
      2 ^ 52 + bits.toNat % 2 ^ 52 := by
    rw [← fraction]
    exact toNat_hidden _
  rw [form_of_bits x same, Float.Model.unpack, same, UnpackedFloat.unpack]
  dsimp only
  by_cases special : bits.toNat / 2 ^ 52 % 2 ^ 11 = 2 ^ 11 - 1
  · rw [if_pos special, if_pos (greatest.2 special)]
    by_cases empty : bits.toNat % 2 ^ 52 = 0
    · rw [if_pos empty, if_pos (none.2 empty), Form.ofUnpacked, sign]
    · rw [if_neg empty, if_neg (mt none.1 empty), Form.ofUnpacked]
  · rw [if_neg special, if_neg (mt greatest.1 special)]
    by_cases low : bits.toNat / 2 ^ 52 % 2 ^ 11 = 0
    · rw [if_pos low, if_pos (least.2 low)]
      by_cases empty : bits.toNat % 2 ^ 52 = 0
      · rw [dif_pos (none.2 empty), Form.ofUnpacked, sign, empty]
        rfl
      · rw [dif_neg (mt none.1 empty), Form.ofUnpacked, sign, fraction, exponent, low]
        rfl
    · rw [if_neg low, if_neg (mt least.1 low), Form.ofUnpacked, sign, significand, exponent]
      congr 1
      simp only [Format.exponentBias]
      omega

section Packing

variable {significand field : Nat} (positive : 0 < significand)

/-- A significand of full length is packed without its hidden bit. -/
theorem pack_finite (length : significand.log2 = 52) (fits : field < 2047) :
    UnpackedFloat.pack .binary64 (.finite .positive significand (field - 1075) positive) =
      packComponents .binary64 .positive (BitVec.ofNat 11 field) (BitVec.ofNat 52 significand) := by
  have biased : ((field : Int) - 1075 + (Format.exponentBias .binary64 : Nat) +
      (52 : Nat)).toNat = field := by
    simp only [Format.exponentBias]
    omega
  have below : ¬2 ^ 11 ≤ field + 1 := by omega
  rw [UnpackedFloat.pack]
  dsimp only
  rw [biased, if_neg below, if_pos (by rw [length]; rfl)]

end Packing

theorem toNat_field {field : Nat} (greatest : field < 2047) :
    (BitVec.ofNat 11 field).toNat = field := by
  rw [BitVec.toNat_ofNat]
  omega

/-- Bits with a field between the least and the greatest have a hidden bit. -/
theorem unpack_of_fields {bits : BitVec 64} {field significand : Nat}
    (exponentField : @unpackExponent .binary64 bits = BitVec.ofNat 11 field)
    (fractionField : @unpackMantissa .binary64 bits = BitVec.ofNat 52 significand)
    (least : 0 < field) (greatest : field < 2047) (lower : 2 ^ 52 ≤ significand)
    (upper : significand < 2 ^ 53) (positive : 0 < significand) :
    UnpackedFloat.unpack .binary64 bits =
      .finite (.ofBitVec (@unpackSign .binary64 bits)) significand (field - 1075) positive := by
  have value : (@unpackExponent .binary64 bits).toNat = field := by
    rw [exponentField]
    exact toNat_field greatest
  have notGreatest : @unpackExponent .binary64 bits ≠ -1#11 := by
    rw [Ne, ← BitVec.toNat_inj, value]
    exact greatest.ne
  have notLeast : @unpackExponent .binary64 bits ≠ 0#11 := by
    rw [Ne, ← BitVec.toNat_inj, value]
    exact least.ne'
  have hidden : (1#1 ++ @unpackMantissa .binary64 bits).toNat = significand := by
    rw [fractionField, toNat_hidden, BitVec.toNat_ofNat]
    omega
  subst value hidden
  rw [UnpackedFloat.unpack]
  dsimp only
  rw [if_neg notGreatest, if_neg notLeast]
  rfl

/-- A significand of full length above an exponent that fits is packed as it is. -/
theorem unpack_pack {significand : Nat} {exponent : Int} (positive : 0 < significand)
    (lower : 2 ^ 52 ≤ significand) (upper : significand < 2 ^ 53) (low : -1074 ≤ exponent)
    (high : exponent ≤ 971) :
    (Float.Model.pack (.finite .positive significand exponent positive)).unpack =
      .finite .positive significand exponent positive := by
  obtain ⟨field, rfl⟩ : ∃ field : Nat, exponent = (field : Int) - 1075 :=
    ⟨(exponent + 1075).toNat, by omega⟩
  have length : significand.log2 = 52 := (Nat.log2_eq_iff positive.ne').2 ⟨lower, upper⟩
  have taken := unpack_of_fields (@unpackExponent_packComponents .binary64 .positive _ _)
    unpackMantissa_packComponents (show 0 < field by omega) (by omega) lower upper positive
  rw [unpackSign_packComponents, ← pack_finite positive length (by omega)] at taken
  exact taken

/-- The bits of a significand with its hidden bit in the field of the exponent. -/
theorem unpack_ofBits {significand place : Nat} (positive : 0 < significand)
    (lower : 2 ^ 52 ≤ significand) (upper : significand < 2 ^ 53) (fits : place ≤ 2045) :
    (Float.ofBits (UInt64.ofNat (place * 2 ^ 52 + significand))).toModel.unpack =
      .finite .positive significand (place - 1074) positive := by
  obtain ⟨bits, same, value⟩ : ∃ bits : BitVec 64,
      (UInt64.ofNat (place * 2 ^ 52 + significand)).toBitVec = bits ∧
        bits.toNat = place * 2 ^ 52 + significand := by
    refine ⟨_, rfl, ?_⟩
    rw [UInt64.toNat_toBitVec, UInt64.toNat_ofNat']
    omega
  have exponent : @unpackExponent .binary64 bits = BitVec.ofNat 11 (place + 1) := by
    rw [← BitVec.toNat_inj, toNat_field (by omega), toNat_unpackExponent, value]
    omega
  have fraction : @unpackMantissa .binary64 bits = BitVec.ofNat 52 significand := by
    have reduced : (BitVec.ofNat 52 significand).toNat = significand % 2 ^ 52 :=
      BitVec.toNat_ofNat _ _
    rw [← BitVec.toNat_inj, toNat_unpackMantissa, value, reduced]
    omega
  have sign : Sign.ofBitVec (@unpackSign .binary64 bits) = .positive := by
    have plain := ofBitVec_unpackSign bits
    rw [decide_eq_false (by omega)] at plain
    cases signed : Sign.ofBitVec (@unpackSign .binary64 bits) with
    | positive => rfl
    | negative =>
      rw [signed] at plain
      exact nomatch plain
  have taken := unpack_of_fields exponent fraction place.succ_pos (by omega) lower upper positive
  have shifted : ((place + 1 : Nat) : Int) - 1075 = place - 1074 := by omega
  rw [sign, shifted] at taken
  rw [Float.ofBits, Float.Model.ofBits, same, taken]
  exact unpack_pack positive lower upper (by omega) (by omega)

end CuttingPlanes.Binary64
