import TimedText.Proofs.Number.Size
import TimedText.Proofs.Number.Sum
/-!
Finite floating-point numbers. A sum of two of them may lie past all of them, on either
side, but it always has a place on the line.
-/

namespace TimedText.Number

open Quantity Float.Model Float.Model.UnpackedFloat

private theorem isDefined_of_bits {number : Float} (within : bits number % 2 ^ 63 ≤ infinityPlace) :
    IsDefined number := by
  rw [isDefined_iff, place?_eq, if_neg (not_lt.mpr within)]
  split
  · exact ⟨_, rfl⟩
  · exact ⟨_, rfl⟩

/-! ## Put together -/

private theorem packComponents_toNat_mod (sign : Sign)
    (exponent : BitVec Format.binary64.exponentBits)
    (mantissa : BitVec Format.binary64.mantissaBitsWithoutImplicit) :
    (packComponents .binary64 sign exponent mantissa).toNat % 2 ^ 63
      = exponent.toNat * 2 ^ 52 + mantissa.toNat := by
  have exponentBound : exponent.toNat < 2 ^ 11 := exponent.isLt
  have mantissaBound : mantissa.toNat < 2 ^ 52 := mantissa.isLt
  rw [packComponents_toNat_eq]
  omega

private theorem isDefined_pack {unpacked : UnpackedFloat} (number : unpacked ≠ .notANumber) :
    IsDefined (⟨Float.Model.pack unpacked⟩ : Float) := by
  apply isDefined_of_bits
  rw [bits_pack]
  have infinity (sign : Sign) :
      (packedInfinity .binary64 sign).toNat % 2 ^ 63 ≤ infinityPlace := by
    rw [packedInfinity, packComponents_toNat_mod]
    exact le_rfl
  cases unpacked with
  | notANumber => exact absurd rfl number
  | infinity sign => exact infinity sign
  | zero sign =>
      rw [UnpackedFloat.pack, packedZero, packComponents_toNat_mod]
      decide
  | finite sign mantissa exponent positive =>
      rw [UnpackedFloat.pack]
      dsimp only
      split
      next => exact infinity sign
      next below =>
        change ¬2 ^ 11 ≤ _ at below
        have digits := Nat.mod_lt mantissa (Nat.two_pow_pos 52)
        have places := Nat.mod_le (exponent + Format.binary64.exponentBias
          + Format.binary64.mantissaBitsWithoutImplicit).toNat (2 ^ 11)
        split
        next =>
          rw [packComponents_toNat_mod, BitVec.toNat_ofNat, BitVec.toNat_ofNat]
          change _ % 2 ^ 11 * 2 ^ 52 + mantissa % 2 ^ 52 ≤ _
          rw [infinityPlace]
          omega
        next =>
          rw [packComponents_toNat_mod, BitVec.toNat_ofNat]
          change 0 * 2 ^ 52 + mantissa % 2 ^ 52 ≤ _
          rw [infinityPlace]
          omega

/-! ## Taken apart -/

private inductive IsBounded : UnpackedFloat → Prop
  | zero (sign : Sign) : IsBounded (.zero sign)
  | finite (sign : Sign) {mantissa : Nat} (exponent : Int) (positive : 0 < mantissa) :
    IsBounded (.finite sign mantissa exponent positive)

variable {left right : Float}

private theorem IsFinite.isBounded (finite : IsFinite left) : IsBounded left.toModel.unpack := by
  have exponentBits := unpackExponent_toNat left.toModel.toBits.toBitVec
  change _ = bits left / 2 ^ 52 % 2 ^ 11 at exponentBits
  rw [Float.Model.unpack, UnpackedFloat.unpack]
  dsimp only
  split
  next isLast =>
    have isLast : bits left / 2 ^ 52 % 2 ^ 11 = 2047 :=
      exponentBits.symm.trans (congrArg BitVec.toNat isLast)
    rcases finite with ⟨exact, same⟩
    rw [value_eq, if_pos isLast] at same
    split at same <;> cases same
  next =>
    split
    next =>
      split
      · exact .zero _
      · exact .finite _ _ _
    next => exact .finite _ _ _

private theorem roundWithAccuracy_ne_notANumber (sign : Sign) (mantissa : Nat) (exponent : Int)
    (accuracy : Accuracy) :
    roundWithAccuracy .binary64 sign mantissa exponent accuracy ≠ .notANumber := by
  unfold roundWithAccuracy
  dsimp only
  split <;> exact UnpackedFloat.noConfusion

private theorem normalize_ne_notANumber (mantissa exponent : Int) (zeroSign : Sign) :
    UnpackedFloat.normalize .binary64 mantissa exponent zeroSign ≠ .notANumber := by
  rw [UnpackedFloat.normalize]
  split
  · exact roundWithAccuracy_ne_notANumber _ _ _ _
  · exact UnpackedFloat.noConfusion
  · exact roundWithAccuracy_ne_notANumber _ _ _ _

private theorem IsBounded.add_ne_notANumber {first second : UnpackedFloat} (one : IsBounded first)
    (other : IsBounded second) : UnpackedFloat.add .binary64 first second ≠ .notANumber := by
  cases one with
  | zero sign =>
      cases other with
      | zero other => cases sign <;> cases other <;> exact UnpackedFloat.noConfusion
      | finite => exact UnpackedFloat.noConfusion
  | finite =>
      cases other with
      | zero => exact UnpackedFloat.noConfusion
      | finite => exact normalize_ne_notANumber _ _ _

/-! ## Places -/

theorem isFinite_of_bits (below : bits left < infinityPlace) : IsFinite left :=
  (measures_iff.mpr ⟨below, rfl⟩).isFinite

theorem IsFinite.isDefined (finite : IsFinite left) : IsDefined left := by
  rcases finite with ⟨exact, same⟩
  apply isDefined_of_bits
  by_contra past
  cases same.symm.trans ((value_undefined_iff left).mpr (not_le.mp past))

theorem IsFinite.add_isDefined (finite : IsFinite left) (other : IsFinite right) :
    IsDefined (Quantity.add left right) :=
  isDefined_pack (finite.isBounded.add_ne_notANumber other.isBounded)

end TimedText.Number
