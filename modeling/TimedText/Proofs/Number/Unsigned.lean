import TimedText.Proofs.Number.Sum
/-!
Numbers without a sign. Sums, products and quotients of such numbers have none
either, nor has a numeral; and a number without a sign does not lie before zero.
-/

namespace TimedText.Number

open Quantity Float.Model Float.Model.UnpackedFloat

def IsUnsigned (number : Float) : Prop := bits number < 2 ^ 63

def Signless : UnpackedFloat → Prop
  | .notANumber => True
  | .infinity sign | .zero sign | .finite sign _ _ _ => sign = .positive

theorem IsUnsigned.not_less_zero {number : Float} (unsigned : IsUnsigned number) :
    Quantity.less number Quantity.zero = false := by
  apply Bool.eq_false_iff.mpr
  intro below
  rcases less_iff.mp below with ⟨place, _, placed, zero, lt⟩
  cases place?_zero.symm.trans zero
  have placeBits := bits_of_place placed
  rw [IsUnsigned] at unsigned
  omega

/-! ## Taken apart and put together -/

theorem IsUnsigned.unpack {number : Float} (unsigned : IsUnsigned number) :
    Signless number.toModel.unpack := by
  have positive := ofBitVec_of_zero
    ((unpackSign_eq_zero_iff number.toModel.toBits.toBitVec).mpr unsigned)
  rw [Float.Model.unpack, UnpackedFloat.unpack]
  dsimp only
  rw [positive]
  split
  · split
    · rfl
    · trivial
  · split
    · split <;> rfl
    · rfl

private theorem packComponents_lt (exponent : BitVec Format.binary64.exponentBits)
    (mantissa : BitVec Format.binary64.mantissaBitsWithoutImplicit) :
    (packComponents .binary64 .positive exponent mantissa).toNat < 2 ^ 63 := by
  have exponentBound : exponent.toNat < 2 ^ 11 := exponent.isLt
  have mantissaBound : mantissa.toNat < 2 ^ 52 := mantissa.isLt
  rw [packComponents_toNat]
  omega

theorem Signless.pack {unpacked : UnpackedFloat} (signless : Signless unpacked) :
    IsUnsigned ⟨Float.Model.pack unpacked⟩ := by
  rw [IsUnsigned, bits_pack, UnpackedFloat.pack.eq_def]
  cases unpacked with
  | notANumber => exact packComponents_lt _ _
  | infinity sign =>
      cases signless
      exact packComponents_lt _ _
  | zero sign =>
      cases signless
      exact packComponents_lt _ _
  | finite sign mantissa exponent positive =>
      cases signless
      dsimp only
      split
      · exact packComponents_lt _ _
      · split <;> exact packComponents_lt _ _

/-! ## Arithmetic -/

theorem roundWithAccuracy_signless (mantissa : Nat) (exponent : Int)
    (accuracy : Accuracy) :
    Signless (roundWithAccuracy .binary64 .positive mantissa exponent accuracy) := by
  rw [roundWithAccuracy]
  dsimp only
  split <;> rfl

private theorem round_signless (mantissa : Nat) (exponent : Int) :
    Signless (UnpackedFloat.round .binary64 .positive mantissa exponent) :=
  roundWithAccuracy_signless _ _ _

private theorem normalize_signless {mantissa : Int} (unsigned : 0 ≤ mantissa)
    (exponent : Int) :
    Signless (UnpackedFloat.normalize .binary64 mantissa exponent .positive) := by
  rw [UnpackedFloat.normalize]
  split
  next below => exact absurd (compare_lt_iff_lt.mp below) (by omega)
  · rfl
  · exact round_signless _ _

variable {left right : UnpackedFloat}

private theorem add_signless (leftSignless : Signless left) (rightSignless : Signless right) :
    Signless (UnpackedFloat.add .binary64 left right) := by
  cases left <;> cases right <;> cases leftSignless <;> cases rightSignless
  case finite.finite =>
    rw [UnpackedFloat.add]
    exact normalize_signless (Int.add_nonneg (Int.natCast_nonneg _) (Int.natCast_nonneg _)) _
  all_goals trivial

private theorem mul_signless (leftSignless : Signless left) (rightSignless : Signless right) :
    Signless (UnpackedFloat.mul .binary64 left right) := by
  cases left <;> cases right <;> cases leftSignless <;> cases rightSignless
  case finite.finite => exact roundWithAccuracy_signless _ _ _
  all_goals trivial

private theorem div_signless (leftSignless : Signless left) (rightSignless : Signless right) :
    Signless (UnpackedFloat.div .binary64 left right) := by
  cases left <;> cases right <;> cases leftSignless <;> cases rightSignless
  case finite.finite => exact roundWithAccuracy_signless _ _ _
  all_goals trivial

namespace IsUnsigned

variable {first second : Float}

theorem add (firstUnsigned : IsUnsigned first) (secondUnsigned : IsUnsigned second) :
    IsUnsigned (first + second) :=
  (add_signless firstUnsigned.unpack secondUnsigned.unpack).pack

theorem mul (firstUnsigned : IsUnsigned first) (secondUnsigned : IsUnsigned second) :
    IsUnsigned (first * second) :=
  (mul_signless firstUnsigned.unpack secondUnsigned.unpack).pack

theorem div (firstUnsigned : IsUnsigned first) (secondUnsigned : IsUnsigned second) :
    IsUnsigned (first / second) :=
  (div_signless firstUnsigned.unpack secondUnsigned.unpack).pack

end IsUnsigned

/-! ## Numerals -/

instance (number : Float) : Decidable (IsUnsigned number) :=
  inferInstanceAs (Decidable (bits number < 2 ^ 63))

private theorem powersOfTen_areUnsigned :
    ∀ power ∈ Float.exactlyRepresentablePowersOfTen, IsUnsigned power := by
  decide +kernel

private theorem toFloat_isUnsigned (count : UInt64) : IsUnsigned count.toFloat :=
  (normalize_signless (Int.natCast_nonneg _) 0).pack

private theorem ofScientific_signless (digits : Nat) (exponent : Int) :
    Signless (UnpackedFloat.ofScientific .binary64 digits exponent) := by
  rw [UnpackedFloat.ofScientific]
  split
  · rfl
  · split
    · rfl
    · split
      · rfl
      · split
        · exact mul_signless rfl rfl
        · exact div_signless rfl rfl

theorem ofScientific_isUnsigned (digits : Nat) (divides : Bool) (exponent : Nat) :
    IsUnsigned (Float.ofScientific digits divides exponent) := by
  rw [Float.ofScientific]
  split
  next short =>
    have count := toFloat_isUnsigned digits.toUInt64
    have power := powersOfTen_areUnsigned _ (Array.getElem_mem (i := exponent)
      (by simp [Float.exactlyRepresentablePowersOfTen]; omega))
    dsimp only
    split
    · exact count.div power
    · exact count.mul power
  next => exact (ofScientific_signless digits _).pack

end TimedText.Number
