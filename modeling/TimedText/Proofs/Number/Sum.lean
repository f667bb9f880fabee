import TimedText.Proofs.Number.Place
/-!
Sums of floating-point numbers. A sum is rounded, but never past a number: what
is added to a number that is not negative, and is itself not negative, does not
take it below where it was. So floating-point numbers obey the law of adding.
-/

namespace TimedText.Number

open Quantity Float.Model Float.Model.UnpackedFloat

/-! ## Taken apart and put together -/

def placeOf (mantissa : Nat) (exponent : Int) : Int :=
  (exponent + 1074) * 2 ^ 52 + mantissa

structure IsKept (mantissa : Nat) (exponent : Int) : Prop where
  positive : 0 < mantissa
  least : -1074 ≤ exponent
  below : mantissa < 2 ^ 53
  normal : 2 ^ 52 ≤ mantissa ∨ exponent = -1074

/-- A number that is not negative and has a place, which may lie past infinity as
long as the number is not put together. -/
inductive Stands : UnpackedFloat → Int → Prop
  | zero (sign : Sign) : Stands (.zero sign) 0
  | infinity : Stands (.infinity .positive) infinityPlace
  | finite {mantissa : Nat} {exponent : Int} (kept : IsKept mantissa exponent) :
    Stands (.finite .positive mantissa exponent kept.positive)
      (placeOf mantissa exponent)

theorem packComponents_toNat_eq (sign : Sign)
    (exponent : BitVec Format.binary64.exponentBits)
    (mantissa : BitVec Format.binary64.mantissaBitsWithoutImplicit) :
    (packComponents .binary64 sign exponent mantissa).toNat
      = (sign.toBitVec.toNat * 2 ^ 11 + exponent.toNat) * 2 ^ 52 + mantissa.toNat := by
  rw [packComponents, BitVec.toNat_append, ← Nat.shiftLeft_add_eq_or_of_lt mantissa.isLt,
    BitVec.toNat_append, ← Nat.shiftLeft_add_eq_or_of_lt exponent.isLt, Nat.shiftLeft_eq,
    Nat.shiftLeft_eq]

theorem packComponents_toNat (exponent : BitVec Format.binary64.exponentBits)
    (mantissa : BitVec Format.binary64.mantissaBitsWithoutImplicit) :
    (packComponents .binary64 .positive exponent mantissa).toNat
      = exponent.toNat * 2 ^ 52 + mantissa.toNat := by
  rw [packComponents_toNat_eq]
  simp [Sign.toBitVec]

theorem unpackSign_eq_zero_iff (packed : BitVec Format.binary64.numBits) :
    unpackSign packed = 0#1 ↔ packed.toNat < 2 ^ 63 := by
  have bound : packed.toNat < 2 ^ 64 := packed.isLt
  rw [← BitVec.toNat_inj]
  simp [unpackSign, BitVec.extractLsb, Nat.shiftRight_eq_div_pow]
  omega

theorem bits_pack (unpacked : UnpackedFloat) :
    bits ⟨Float.Model.pack unpacked⟩ = (UnpackedFloat.pack .binary64 unpacked).toNat :=
  rfl

theorem place?_of_bits {number : Float} (within : bits number ≤ infinityPlace) :
    place? number = some (bits number : Int) := by
  have infinity := infinityPlace_lt
  rw [place?_eq, if_neg (by omega), if_pos (by omega)]

private theorem log2_add_one_eq_iff {mantissa : Nat} (below : mantissa < 2 ^ 53) :
    mantissa.log2 + 1 = 53 ↔ 2 ^ 52 ≤ mantissa := by
  rcases Nat.eq_zero_or_pos mantissa with zero | positive
  · subst zero
    decide
  · have least := Nat.le_log2 (n := mantissa) (k := 52) (by omega)
    have most := Nat.log2_lt (n := mantissa) (k := 53) (by omega)
    omega

private theorem bits_pack_finite {mantissa : Nat} {exponent : Int}
    (kept : IsKept mantissa exponent) :
    (bits ⟨Float.Model.pack (.finite .positive mantissa exponent kept.positive)⟩ : Int)
      = min (placeOf mantissa exponent) infinityPlace := by
  rcases kept with ⟨positive, least, below, normal⟩
  have width : Format.binary64.mantissaBits = 53 := rfl
  have biased : (exponent + Format.binary64.exponentBias
      + Format.binary64.mantissaBitsWithoutImplicit).toNat = (exponent + 1075).toNat := by
    change (exponent + (1023 : Int) + (52 : Int)).toNat = _
    omega
  have isNormal := log2_add_one_eq_iff below
  rw [bits_pack, UnpackedFloat.pack, placeOf, infinityPlace]
  dsimp only
  rw [biased, width]
  split
  next beyond =>
    change 2 ^ 11 ≤ _ at beyond
    rw [packedInfinity, packComponents_toNat]
    change ((2047 * 2 ^ 52 + 0 : Nat) : Int) = _
    omega
  next finite =>
    change ¬2 ^ 11 ≤ _ at finite
    split
    next =>
      rw [packComponents_toNat, BitVec.toNat_ofNat, BitVec.toNat_ofNat]
      change (((exponent + 1075).toNat % 2 ^ 11 * 2 ^ 52 + mantissa % 2 ^ 52 : Nat) : Int)
        = _
      omega
    next =>
      rw [packComponents_toNat, BitVec.toNat_ofNat]
      change ((0 * 2 ^ 52 + mantissa % 2 ^ 52 : Nat) : Int) = _
      omega

theorem place?_pack {unpacked : UnpackedFloat} {place : Int}
    (stands : Stands unpacked place) :
    place? ⟨Float.Model.pack unpacked⟩ = some (min place infinityPlace) := by
  cases stands with
  | zero sign => cases sign <;> decide +kernel
  | infinity => decide +kernel
  | finite kept =>
      have packed := bits_pack_finite kept
      rw [← packed]
      apply place?_of_bits
      omega

private theorem oneBit_append_toNat {width : Nat} (digits : BitVec width) :
    (1#1 ++ digits).toNat = 2 ^ width + digits.toNat := by
  rw [BitVec.toNat_append, ← Nat.shiftLeft_add_eq_or_of_lt digits.isLt,
    Nat.shiftLeft_eq]
  simp

private theorem Stands.of_kept {sign : Sign} {mantissa : Nat} {exponent place : Int}
    (unsigned : sign = .positive) (kept : IsKept mantissa exponent)
    (same : place = placeOf mantissa exponent) (positive : 0 < mantissa) :
    Stands (.finite sign mantissa exponent positive) place := by
  subst unsigned same
  exact .finite kept

theorem ofBitVec_of_zero {sign : BitVec 1} (zero : sign = 0#1) :
    Sign.ofBitVec sign = .positive := by
  subst zero
  rfl

theorem stands_unpack {number : Float} {place : Int}
    (placed : place? number = some place) (unsigned : 0 ≤ place) :
    Stands number.toModel.unpack place := by
  have exponentBits := unpackExponent_toNat number.toModel.toBits.toBitVec
  have mantissaBits := unpackMantissa_toNat number.toModel.toBits.toBitVec
  have signBit := unpackSign_eq_zero_iff number.toModel.toBits.toBitVec
  change _ = bits number / 2 ^ 52 % 2 ^ 11 at exponentBits
  change _ = bits number % 2 ^ 52 at mantissaBits
  change _ ↔ bits number < 2 ^ 63 at signBit
  -- A number that is not negative has no sign, or is the zero with one.
  have placeBits : bits number ≤ infinityPlace ∧ place = bits number
      ∨ bits number = 2 ^ 63 ∧ place = 0 := by
    rcases bits_of_place placed with unsignedBits | ⟨signed, _, same⟩
    · exact .inl unsignedBits
    · exact .inr (by omega)
  rw [infinityPlace] at placeBits
  have bias : (((Format.binary64.exponentBias : Nat) : Int)
      + (Format.binary64.mantissaBitsWithoutImplicit : Nat)) = 1075 := rfl
  rw [Float.Model.unpack, UnpackedFloat.unpack]
  dsimp only
  rw [bias]
  split
  next isLast =>
    have isLast : bits number / 2 ^ 52 % 2 ^ 11 = 2047 :=
      exponentBits.symm.trans (congrArg BitVec.toNat isLast)
    split
    next noFraction =>
      have noFraction : bits number % 2 ^ 52 = 0 :=
        mantissaBits.symm.trans (congrArg BitVec.toNat noFraction)
      rw [ofBitVec_of_zero (signBit.mpr (by omega))]
      have same : place = infinityPlace := by
        rw [infinityPlace]
        omega
      exact same ▸ .infinity
    next fraction =>
      have fraction : bits number % 2 ^ 52 ≠ 0 := fun none =>
        fraction (BitVec.eq_of_toNat_eq (mantissaBits.trans none))
      omega
  next notLast =>
    have notLast : bits number / 2 ^ 52 % 2 ^ 11 ≠ 2047 := fun last =>
      notLast (BitVec.eq_of_toNat_eq (exponentBits.trans last))
    split
    next isFirst =>
      have isFirst : bits number / 2 ^ 52 % 2 ^ 11 = 0 :=
        exponentBits.symm.trans (congrArg BitVec.toNat isFirst)
      split
      next noFraction =>
        have noFraction : bits number % 2 ^ 52 = 0 :=
          mantissaBits.symm.trans (congrArg BitVec.toNat noFraction)
        have same : place = 0 := by omega
        exact same ▸ .zero _
      next fraction =>
        have fraction : bits number % 2 ^ 52 ≠ 0 := fun none =>
          fraction (BitVec.eq_of_toNat_eq (mantissaBits.trans none))
        apply Stands.of_kept (ofBitVec_of_zero (signBit.mpr (by omega)))
        · constructor <;> omega
        · rw [placeOf]
          omega
    next notFirst =>
      have notFirst : bits number / 2 ^ 52 % 2 ^ 11 ≠ 0 := fun first =>
        notFirst (BitVec.eq_of_toNat_eq (exponentBits.trans first))
      have whole := oneBit_append_toNat
        (@unpackMantissa .binary64 number.toModel.toBits.toBitVec)
      change _ = 2 ^ 52 + _ at whole
      apply Stands.of_kept (ofBitVec_of_zero (signBit.mpr (by omega)))
      · constructor <;> omega
      · rw [placeOf]
        omega

/-! ## Rounding -/

private theorem shiftRight_mantissa (extended : ExtendedMantissa) (amount : Nat) :
    (extended >>> amount).mantissa = extended.mantissa / 2 ^ amount := by
  induction amount with
  | zero => exact (Nat.div_one _).symm
  | succ amount induction =>
      change (extended >>> amount).mantissa / 2 = _
      rw [induction, Nat.div_div_eq_div_mul, Nat.pow_succ]

theorem roundedMantissa_bounds (extended : ExtendedMantissa) :
    extended.mantissa ≤ extended.roundedMantissa
      ∧ extended.roundedMantissa ≤ extended.mantissa + 1 := by
  rcases extended with ⟨mantissa, roundBit, stickyBit⟩
  cases roundBit <;> cases stickyBit <;>
    simp [ExtendedMantissa.roundedMantissa, ExtendedMantissa.accuracy,
      Accuracy.roundToNearestEven]
  omega

def cutDigits (mantissa : Nat) (exponent : Int) : Nat :=
  (max (mantissa.log2 + exponent - 52) (-1074) - exponent).toNat

theorem targetExponent_eq (mantissa : Nat) (exponent : Int) :
    Format.binary64.targetExponent (totalExponent mantissa exponent)
      = max (mantissa.log2 + exponent - 52) (-1074) := by
  change max ((mantissa.log2 : Int) + 1 + exponent - 53) (-1074) = _
  omega

theorem shiftToTargetExponent_exponent (mantissa : Nat) (exponent : Int)
    (accuracy : Accuracy) :
    (shiftToTargetExponent .binary64 mantissa exponent accuracy).2
      = exponent + cutDigits mantissa exponent := by
  rw [shiftToTargetExponent, targetExponent_eq, shiftToExponent, cutDigits]

theorem shiftToTargetExponent_mantissa (mantissa : Nat) (exponent : Int)
    (accuracy : Accuracy) :
    (shiftToTargetExponent .binary64 mantissa exponent accuracy).1.mantissa
      = mantissa / 2 ^ cutDigits mantissa exponent := by
  have whole : (ExtendedMantissa.ofMantissaAndAccuracy mantissa accuracy).mantissa
      = mantissa := by
    cases accuracy with
    | exact => rfl
    | inexact half => cases half <;> rfl
  rw [shiftToTargetExponent, targetExponent_eq, shiftToExponent, cutDigits]
  dsimp only
  rw [shiftRight_mantissa, whole]

theorem div_lt_of_log2 {mantissa amount : Nat} (short : mantissa.log2 ≤ 52 + amount) :
    mantissa / 2 ^ amount < 2 ^ 53 := by
  apply Nat.div_lt_of_lt_mul
  have below := Nat.lt_log2_self (n := mantissa)
  have power : 2 ^ (mantissa.log2 + 1) ≤ 2 ^ (amount + 53) :=
    Nat.pow_le_pow_right (by decide) (by omega)
  rw [← Nat.pow_add]
  exact below.trans_le power

theorem le_div_of_log2 {mantissa amount : Nat} (long : mantissa.log2 = 52 + amount) :
    2 ^ 52 ≤ mantissa / 2 ^ amount := by
  have positive : mantissa ≠ 0 := by
    rintro rfl
    rw [Nat.log2_zero] at long
    omega
  rw [Nat.le_div_iff_mul_le (Nat.two_pow_pos amount), ← Nat.pow_add, ← long]
  exact Nat.log2_self_le positive

/-- What rounding leaves of a mantissa is kept; if it is one digit too long, that
is with the next exponent and in the same place. -/
private theorem carry {mantissa : Nat} {exponent : Int} (positive : 0 < mantissa)
    (least : -1074 ≤ exponent) (atMost : mantissa ≤ 2 ^ 53)
    (normal : 2 ^ 52 ≤ mantissa ∨ exponent = -1074) :
    IsKept (mantissa / 2 ^ cutDigits mantissa exponent)
        (exponent + cutDigits mantissa exponent)
      ∧ placeOf (mantissa / 2 ^ cutDigits mantissa exponent)
          (exponent + cutDigits mantissa exponent) = placeOf mantissa exponent := by
  rcases Nat.lt_or_eq_of_le atMost with below | same
  · have short : mantissa.log2 < 53 := (Nat.log2_lt (by omega)).mpr below
    have none : cutDigits mantissa exponent = 0 := by
      rw [cutDigits]
      omega
    rw [none, Nat.pow_zero, Nat.div_one, Int.natCast_zero, Int.add_zero]
    exact ⟨⟨positive, least, below, normal⟩, rfl⟩
  · have one : cutDigits mantissa exponent = 1 := by
      rw [cutDigits, same, Nat.log2_two_pow]
      omega
    rw [one, same]
    refine ⟨⟨by decide, by omega, by decide, .inl (by decide)⟩, ?_⟩
    rw [placeOf, placeOf]
    omega

theorem roundWithAccuracy_stands {mantissa : Nat} {exponent : Int}
    {extended : ExtendedMantissa} {reached : Int} {accuracy : Accuracy}
    (shifted : shiftToTargetExponent .binary64 mantissa exponent accuracy
      = (extended, reached))
    (positive : 0 < extended.roundedMantissa) (least : -1074 ≤ reached)
    (atMost : extended.roundedMantissa ≤ 2 ^ 53)
    (normal : 2 ^ 52 ≤ extended.roundedMantissa ∨ reached = -1074) :
    Stands (roundWithAccuracy .binary64 .positive mantissa exponent accuracy)
      (placeOf extended.roundedMantissa reached) := by
  rcases carry positive least atMost normal with ⟨kept, same⟩
  have digits := shiftToTargetExponent_mantissa extended.roundedMantissa reached .exact
  have last := shiftToTargetExponent_exponent extended.roundedMantissa reached .exact
  rw [← digits, ← last] at kept same
  rw [roundWithAccuracy, shifted]
  dsimp only
  rw [dif_neg kept.positive.ne', ← same]
  exact .finite kept

theorem log2_add_le {kept mantissa amount : Nat} (positive : 0 < kept)
    (atLeast : kept * 2 ^ amount ≤ mantissa) : kept.log2 + amount ≤ mantissa.log2 := by
  have shifted : 0 < kept * 2 ^ amount := Nat.mul_pos positive (Nat.two_pow_pos amount)
  rw [Nat.le_log2 (by omega), Nat.pow_add]
  exact (Nat.mul_le_mul_right _ (Nat.log2_self_le (by omega))).trans atLeast

private theorem round_stands {kept mantissa amount : Nat} {exponent : Int}
    (isKept : IsKept kept (exponent + amount)) (atLeast : kept * 2 ^ amount ≤ mantissa) :
    ∃ place, Stands (UnpackedFloat.round .binary64 .positive mantissa exponent) place
      ∧ placeOf kept (exponent + amount) ≤ place := by
  rcases isKept with ⟨positive, least, below, normal⟩
  have longer := log2_add_le positive atLeast
  have keptLog : 2 ^ 52 ≤ kept → 52 ≤ kept.log2 := (Nat.le_log2 (by omega)).mpr
  -- The digits of the kept number are not cut off, and there are not too few.
  have reached : exponent + amount ≤ exponent + cutDigits mantissa exponent := by
    rw [cutDigits]
    omega
  have direct : UnpackedFloat.round .binary64 .positive mantissa exponent
      = roundWithAccuracy .binary64 .positive mantissa exponent .exact := by
    have noShift : (exponent - max (mantissa.log2 + exponent - 52) (-1074)).toNat = 0 := by
      omega
    rw [UnpackedFloat.round, targetExponent_eq, decreaseExponent, noShift, Nat.shiftLeft_zero]
    exact congrArg (roundWithAccuracy .binary64 .positive mantissa · .exact)
      (Int.sub_zero exponent)
  have cut : mantissa.log2 ≤ 52 + cutDigits mantissa exponent
      ∧ (mantissa.log2 = 52 + cutDigits mantissa exponent
        ∨ exponent + cutDigits mantissa exponent = -1074) := by
    rw [cutDigits]
    omega
  have digits := shiftToTargetExponent_mantissa mantissa exponent .exact
  have last := shiftToTargetExponent_exponent mantissa exponent .exact
  rcases shifted : shiftToTargetExponent .binary64 mantissa exponent .exact
    with ⟨extended, target⟩
  rw [shifted] at digits last
  dsimp only at digits last
  have rounded := roundedMantissa_bounds extended
  have short := div_lt_of_log2 cut.1
  have long : 2 ^ 52 ≤ extended.roundedMantissa ∨ target = -1074 := by
    rcases cut.2 with same | least
    · have := le_div_of_log2 same
      exact .inl (by omega)
    · exact .inr (by omega)
  have whole : target = exponent + amount → kept ≤ extended.roundedMantissa := by
    intro same
    have cutSame : cutDigits mantissa exponent = amount := by omega
    rw [cutSame] at digits
    have := (Nat.le_div_iff_mul_le (Nat.two_pow_pos amount)).mpr atLeast
    omega
  have placed : placeOf kept (exponent + amount)
      ≤ placeOf extended.roundedMantissa target := by
    rw [placeOf, placeOf]
    omega
  refine ⟨_, direct ▸ roundWithAccuracy_stands shifted ?_ ?_ ?_ long, placed⟩
  · omega
  · omega
  · omega

/-! ## The law -/

theorem normalize_of_pos {mantissa : Nat} (positive : 0 < mantissa) (exponent : Int)
    (zeroSign : Sign) :
    UnpackedFloat.normalize .binary64 (mantissa : Int) exponent zeroSign
      = UnpackedFloat.round .binary64 .positive mantissa exponent := by
  have greater : compare (mantissa : Int) 0 = .gt :=
    compare_gt_iff_gt.mpr (Int.natCast_pos.mpr positive)
  rw [UnpackedFloat.normalize, greater]
  rfl

theorem add_finite {first second : Nat} (firstPositive : 0 < first)
    (secondPositive : 0 < second) (firstExponent secondExponent : Int) :
    ∃ firstShift secondShift : Nat,
      min firstExponent secondExponent + firstShift = firstExponent ∧
        min firstExponent secondExponent + secondShift = secondExponent ∧
        UnpackedFloat.add .binary64
            (.finite .positive first firstExponent firstPositive)
            (.finite .positive second secondExponent secondPositive)
          = UnpackedFloat.round .binary64 .positive
            (first * 2 ^ firstShift + second * 2 ^ secondShift)
            (min firstExponent secondExponent) := by
  refine ⟨(firstExponent - min firstExponent secondExponent).toNat,
    (secondExponent - min firstExponent secondExponent).toNat, by omega, by omega, ?_⟩
  have shifted := Nat.mul_pos firstPositive (Nat.two_pow_pos
    (firstExponent - min firstExponent secondExponent).toNat)
  rw [← normalize_of_pos (Nat.add_pos_left shifted _) _ .positive]
  rw [UnpackedFloat.add, decreaseExponent, decreaseExponent, Nat.shiftLeft_eq,
    Nat.shiftLeft_eq]
  rfl

private theorem add_finite_stands {first second : Nat} {firstExponent secondExponent : Int}
    (firstKept : IsKept first firstExponent) (positive : 0 < second) :
    ∃ place,
      Stands (UnpackedFloat.add .binary64
        (.finite .positive first firstExponent firstKept.positive)
        (.finite .positive second secondExponent positive)) place
      ∧ placeOf first firstExponent ≤ place := by
  rcases add_finite firstKept.positive positive firstExponent secondExponent
    with ⟨shift, more, exponents, _, sum⟩
  rcases round_stands (exponents.symm ▸ firstKept)
    (Nat.le_add_right (first * 2 ^ shift) (second * 2 ^ more))
    with ⟨place, stands, le⟩
  rw [exponents] at le
  exact ⟨place, sum ▸ stands, le⟩

private theorem add_stands {left right : UnpackedFloat} {first second : Int}
    (leftStands : Stands left first) (rightStands : Stands right second)
    (leftWithin : first ≤ infinityPlace) (rightUnsigned : 0 ≤ second) :
    ∃ place, Stands (UnpackedFloat.add .binary64 left right) place ∧ first ≤ place := by
  cases leftStands with
  | zero sign =>
      cases rightStands with
      | zero other => cases sign <;> cases other <;> exact ⟨0, .zero _, le_rfl⟩
      | infinity => exact ⟨_, .infinity, rightUnsigned⟩
      | finite kept => exact ⟨_, .finite kept, rightUnsigned⟩
  | infinity =>
      cases rightStands with
      | zero => exact ⟨_, .infinity, le_rfl⟩
      | infinity => exact ⟨_, .infinity, le_rfl⟩
      | finite => exact ⟨_, .infinity, le_rfl⟩
  | finite kept =>
      cases rightStands with
      | zero => exact ⟨_, .finite kept, le_rfl⟩
      | infinity => exact ⟨_, .infinity, leftWithin⟩
      | finite other => exact add_finite_stands kept other.positive

theorem place?_zero : place? 0 = some 0 := by
  decide +kernel

instance : Cumulative Float where
  zero_defined := isDefined_iff.mpr ⟨0, place?_zero⟩
  le_add := by
    intro sum more sumUnsigned moreUnsigned
    rcases lessOrEqual_iff.mp sumUnsigned with ⟨_, first, zero, sumPlaced, above⟩
    cases place?_zero.symm.trans zero
    rcases lessOrEqual_iff.mp moreUnsigned with ⟨_, second, zero, morePlaced, counted⟩
    cases place?_zero.symm.trans zero
    have within := (place_bounds sumPlaced).2
    rcases add_stands (stands_unpack sumPlaced above) (stands_unpack morePlaced counted)
      within counted with ⟨place, stands, le⟩
    exact lessOrEqual_iff.mpr ⟨first, _, sumPlaced, place?_pack stands, by omega⟩

end TimedText.Number
