import Mathlib
import FormulaSheet.Decimal.Layout

/-! Floats as bits. A float is its 64 bits: a sign, 11 bits of exponent and 52 bits of fraction. `binaryParts` gives
the size of a float as a significand and a power of two, and together with the sign this tells the float. A float is
negated by changing its sign only. -/
namespace FormulaSheet.FloatParts
open Decimal Float.Model Float.Model.UnpackedFloat

/-! ## Fields of the bits -/

private theorem exponent_toNat (x : Float) :
    (@unpackExponent .binary64 x.toBits.toBitVec).toNat = x.toBits.toNat / 4503599627370496 % 2048 := by
  simp [unpackExponent, Nat.shiftRight_eq_div_pow]

private theorem fraction_toNat (x : Float) :
    (@unpackMantissa .binary64 x.toBits.toBitVec).toNat = x.toBits.toNat % 4503599627370496 := by
  simp [unpackMantissa]

private theorem sign_toNat (x : Float) :
    (Sign.ofBitVec (@unpackSign .binary64 x.toBits.toBitVec)).toBitVec.toNat =
      x.toBits.toNat / 9223372036854775808 := by
  have bound := x.toBits.toNat_lt
  rw [Sign.toBitVec_ofBitVec]
  simp [unpackSign, Nat.shiftRight_eq_div_pow]
  omega

private theorem toNat_components (sign : Sign) (exponent : BitVec 11) (fraction : BitVec 52) :
    (packComponents .binary64 sign exponent fraction).toNat =
      sign.toBitVec.toNat * 9223372036854775808 + exponent.toNat * 4503599627370496 + fraction.toNat := by
  unfold packComponents
  rw [BitVec.toNat_append, ← Nat.shiftLeft_add_eq_or_of_lt fraction.isLt, BitVec.toNat_append,
    ← Nat.shiftLeft_add_eq_or_of_lt exponent.isLt]
  simp only [Nat.shiftLeft_eq]
  omega

/-! ## Finite floats -/

private theorem unpackExponent_full_iff (x : Float) :
    @unpackExponent .binary64 x.toBits.toBitVec = -1#11 ↔ x.toBits.toNat / 4503599627370496 % 2048 = 2047 := by
  rw [← BitVec.toNat_inj, exponent_toNat]
  rfl

/-- The greatest exponent is that of infinities and what is no number. -/
theorem isFinite_iff (x : Float) : x.isFinite ↔ x.toBits.toNat / 4503599627370496 % 2048 ≠ 2047 := by
  rw [Ne, ← unpackExponent_full_iff]
  unfold Float.isFinite Float.Model.isFinite Float.Model.unpack UnpackedFloat.unpack
  simp only [show x.toModel.toBits = x.toBits from rfl]
  by_cases full : @unpackExponent .binary64 x.toBits.toBitVec = -1#11
  · simp only [full, ↓reduceIte, not_true_eq_false, iff_false]
    split <;> simp [UnpackedFloat.isFinite]
  · simp only [full, ↓reduceIte, not_false_eq_true, iff_true]
    split
    · split <;> rfl
    · rfl

theorem not_nan_of_finite (finite : Float.isFinite x) : Float.isNaN x = false := by
  change UnpackedFloat.isFinite x.toModel.unpack = true at finite
  change UnpackedFloat.isNaN x.toModel.unpack = false
  cases unpacked : x.toModel.unpack <;> simp_all [UnpackedFloat.isFinite, UnpackedFloat.isNaN]

theorem not_inf_of_finite (finite : Float.isFinite x) : Float.isInf x = false := by
  change UnpackedFloat.isFinite x.toModel.unpack = true at finite
  change UnpackedFloat.isInf x.toModel.unpack = false
  cases unpacked : x.toModel.unpack <;> simp_all [UnpackedFloat.isFinite, UnpackedFloat.isInf]

/-! ## Negation -/

private theorem neg_unpack (sign : Sign) (exponent : BitVec 11) (fraction : BitVec 52) (notFull : exponent ≠ -1#11) :
    UnpackedFloat.neg (UnpackedFloat.unpack .binary64 (packComponents .binary64 sign exponent fraction)) =
      UnpackedFloat.unpack .binary64 (packComponents .binary64 (-sign) exponent fraction) := by
  simp only [UnpackedFloat.unpack, unpackExponent_packComponents, unpackMantissa_packComponents, unpackSign_packComponents,
    Sign.ofBitVec_toBitVec, notFull, ↓reduceIte]
  split
  · split <;> rfl
  · rfl

private theorem neg_components (finite : Float.isFinite x) :
    (-x).toBits.toBitVec = packComponents .binary64 (-(Sign.ofBitVec (@unpackSign .binary64 x.toBits.toBitVec)))
      (@unpackExponent .binary64 x.toBits.toBitVec) (@unpackMantissa .binary64 x.toBits.toBitVec) := by
  have notFull := mt (unpackExponent_full_iff x).mp ((isFinite_iff x).mp finite)
  have packed := @packComponents_unpackSign_unpackExponent_unpackMantissa .binary64 x.toBits.toBitVec
  change UnpackedFloat.pack .binary64 (UnpackedFloat.neg (UnpackedFloat.unpack .binary64 x.toBits.toBitVec)) = _
  conv_lhs => rw [← packed, neg_unpack _ _ _ notFull, pack_unpack]
  rw [if_neg]
  simp only [isNaNBits, unpackExponent_packComponents, notFull, false_and, decide_false, Bool.false_eq_true,
    not_false_eq_true]

/-- Negation adds half of `2 ^ 64` to the bits, modulo `2 ^ 64`. -/
theorem toBits_neg (finite : Float.isFinite x) :
    (-x).toBits.toNat = (x.toBits.toNat + 9223372036854775808) % 18446744073709551616 := by
  have bound := x.toBits.toNat_lt
  have sign := sign_toNat x
  have flipped (s : Sign) : (-s).toBitVec.toNat = 1 - s.toBitVec.toNat := by cases s <;> rfl
  change (-x).toBits.toBitVec.toNat = _
  rw [neg_components finite, toNat_components, flipped, sign, exponent_toNat, fraction_toNat]
  omega

theorem isFinite_neg (finite : Float.isFinite x) : Float.isFinite (-x) := by
  rw [isFinite_iff] at finite ⊢
  rw [toBits_neg ((isFinite_iff x).mpr finite)]
  omega

/-! ## Parts -/

/-- The size of a float as it is represented: a significand of 53 bits whose leading bit is only missing where the
exponent cannot be less. -/
structure Represented (significand : Nat) (exponent : Int) : Prop where
  fits : significand < 9007199254740992
  least : -1074 ≤ exponent
  normalised : 4503599627370496 ≤ significand ∨ exponent = -1074

theorem leadingBit_eq : leadingBit = 4503599627370496 := rfl

theorem represented_binaryParts (x : Float) : Represented (binaryParts x).1 (binaryParts x).2 := by
  simp only [binaryParts, leadingBit_eq, show Nat.pow 2 11 = 2048 from rfl]
  by_cases subnormal : x.toBits.toNat / 4503599627370496 % 2048 = 0
  · simp only [subnormal, ↓reduceIte]
    exact ⟨by omega, by omega, .inr rfl⟩
  · simp only [subnormal, ↓reduceIte]
    exact ⟨by omega, by omega, .inl (by omega)⟩

/-- The sign and the size tell a float. -/
theorem eq_of_parts {x y : Float} (sign : isNegative x = isNegative y) (size : binaryParts x = binaryParts y) :
    x = y := by
  apply Float.toBits_inj.mp
  apply UInt64.toNat_inj.mp
  have bound := x.toBits.toNat_lt
  have bound' := y.toBits.toNat_lt
  have negative : 9223372036854775808 ≤ x.toBits.toNat ↔ 9223372036854775808 ≤ y.toBits.toNat := by
    simpa [isNegative] using sign
  unfold binaryParts at size
  simp only [leadingBit_eq, show Nat.pow 2 11 = 2048 from rfl] at size
  split at size <;> split at size <;> simp only [Prod.mk.injEq] at size <;> omega

theorem isNegative_neg (finite : Float.isFinite x) : isNegative (-x) = !isNegative x := by
  have bound := x.toBits.toNat_lt
  have limit : Nat.pow 2 63 = 9223372036854775808 := rfl
  simp only [isNegative, toBits_neg finite, limit]
  by_cases negative : 9223372036854775808 ≤ x.toBits.toNat
  · simp only [negative, decide_true, Bool.not_true, decide_eq_false_iff_not]
    omega
  · simp only [negative, decide_false, Bool.not_false, decide_eq_true_eq]
    omega

theorem binaryParts_neg (finite : Float.isFinite x) : binaryParts (-x) = binaryParts x := by
  have bound := x.toBits.toNat_lt
  have exponent : (-x).toBits.toNat / 4503599627370496 % 2048 = x.toBits.toNat / 4503599627370496 % 2048 := by
    rw [toBits_neg finite]
    omega
  have fraction : (-x).toBits.toNat % 4503599627370496 = x.toBits.toNat % 4503599627370496 := by
    rw [toBits_neg finite]
    omega
  simp only [binaryParts, leadingBit_eq, show Nat.pow 2 11 = 2048 from rfl, exponent, fraction]

end FormulaSheet.FloatParts
