import TimedText.Proofs.Number.Rounding
/-!
Arithmetic with floating-point numbers that have no sign. A sum, a product and a quotient are
nearest to the exact ones. They are finite below the midpoint after the greatest number, and
keep to the powers of two between which the exact ones are.
-/

namespace TimedText.Number

open Float.Model Float.Model.UnpackedFloat

/-! ## Results -/

/-- A number is the one nearest to an amount, or infinity if that is past the last place. -/
def RoundsTo (number : Float) (amount : ℚ) : Prop :=
  ∃ place : Nat, bits number = min place infinityPlace ∧ IsNearest amount place

/-- The least amount that is not rounded to a finite number: the midpoint between the
greatest number and the power of two after it. -/
def overflow : ℚ := 2 ^ 1024 - 2 ^ 970

section

variable {number : Float} {amount : ℚ} {place : Nat}

private theorem sizes_at_infinity :
    size (infinityPlace - 1) + size infinityPlace = 2 * overflow := by
  have placed : IsPlaced (2 ^ 53 - 1) 971 := ⟨by decide, by decide, .inl (by decide)⟩
  have last : infinityPlace - 1 = (placeOf (2 ^ 53 - 1) 971).toNat := by decide
  have next : infinityPlace = (placeOf (2 ^ 53 - 1) 971).toNat + 1 := by decide
  have unit : (2 : ℚ) ^ (971 : Int) = 2 * 2 ^ 970 := by
    rw [show (971 : Int) = (970 + 1 : Nat) by rfl, zpow_natCast, pow_succ']
  have power : (2 : ℚ) ^ 1024 = 2 ^ 54 * 2 ^ 970 := by rw [← pow_add]
  rw [next, Nat.add_sub_cancel, size_placeOf placed, size_placeOf_succ placed, overflow, unit,
    power]
  generalize (2 : ℚ) ^ 970 = unit
  norm_num
  ring

private theorem IsNearest.lt_infinityPlace_iff (nearest : IsNearest amount place) :
    place < infinityPlace ↔ amount < overflow := by
  have middle := sizes_at_infinity
  have step : infinityPlace - 1 + 1 = infinityPlace := by decide
  have odd : (infinityPlace - 1) % 2 = 1 := by decide
  have increases := size_strictMono (show infinityPlace - 1 < infinityPlace by decide)
  constructor
  · intro within
    by_contra past
    rcases (not_lt.mp past).lt_or_eq with above | same
    · have after := nearest.after (infinityPlace - 1) (by rw [step]; linarith)
      omega
    · -- The greatest number has an odd place, so that the midpoint after it is rounded up.
      have even := nearest.even (infinityPlace - 1) (by rw [step]; linarith)
      have least : infinityPlace - 1 ≤ place := nearest.ge (by linarith)
      omega
  · intro below
    have before := nearest.before (infinityPlace - 1) (by rw [step]; linarith)
    omega

theorem RoundsTo.cases (rounds : RoundsTo number amount) :
    (amount < overflow ∧ ∃ other, Measures number other) ∨
      (overflow ≤ amount ∧ value number = .infinite false) := by
  rcases rounds with ⟨place, same, nearest⟩
  by_cases within : place < infinityPlace
  · refine .inl ⟨nearest.lt_infinityPlace_iff.mp within, size (bits number), ?_⟩
    exact measures_iff.mpr ⟨by omega, rfl⟩
  · refine .inr ⟨?_, value_infinite_iff.mpr (by omega)⟩
    exact not_lt.mp fun below => within (nearest.lt_infinityPlace_iff.mpr below)

private theorem RoundsTo.measures (rounds : RoundsTo number (size place))
    (within : place < infinityPlace) : Measures number (size place) := by
  rcases rounds with ⟨own, same, nearest⟩
  cases nearest.eq
  rw [min_eq_left (by omega)] at same
  exact measures_iff.mpr ⟨same ▸ within, by rw [same]⟩

private theorem RoundsTo.atMost (rounds : RoundsTo number amount) {most : Int}
    (lower : -1022 ≤ most) (upper : most ≤ 1023) (atMost : amount ≤ 2 ^ most) :
    ∃ other, Measures number other ∧ other ≤ 2 ^ most := by
  rcases rounds with ⟨place, same, nearest⟩
  rw [← size_powerPlace lower] at atMost ⊢
  have le := nearest.le atMost
  have within : powerPlace most < infinityPlace := by
    rw [powerPlace, infinityPlace]
    omega
  rw [min_eq_left (by omega)] at same
  exact ⟨_, measures_iff.mpr ⟨by omega, rfl⟩, size_strictMono.monotone (same ▸ le)⟩

private theorem RoundsTo.atLeast (rounds : RoundsTo number amount) {least : Int} {other : ℚ}
    (own : Measures number other) (lower : -1022 ≤ least) (atLeast : 2 ^ least ≤ amount) :
    2 ^ least ≤ other := by
  rcases rounds with ⟨place, same, nearest⟩
  rcases measures_iff.mp own with ⟨within, rfl⟩
  rw [← size_powerPlace lower] at atLeast ⊢
  have ge := nearest.ge atLeast
  exact size_strictMono.monotone (by omega)

end

/-! ## Taken apart and put together -/

section

variable {number : Float} {amount : ℚ}

private theorem Measures.unpack (own : Measures number amount) :
    (number.toModel.unpack = .zero .positive ∧ amount = 0) ∨
      ∃ mantissa exponent, ∃ kept : IsKept mantissa exponent,
        number.toModel.unpack = .finite .positive mantissa exponent kept.positive ∧
          amount = mantissa * 2 ^ exponent := by
  rcases measures_iff.mp own with ⟨within, rfl⟩
  have bound := infinityPlace_lt
  have unsigned : IsUnsigned number := by
    rw [IsUnsigned]
    omega
  have signless := unsigned.unpack
  have stands := stands_unpack (place?_of_bits within.le) (Int.natCast_nonneg _)
  generalize unpacked : number.toModel.unpack = whole at signless stands
  generalize placed : (bits number : Int) = place at stands
  cases stands with
  | zero sign =>
      cases signless
      have none : bits number = 0 := by omega
      exact .inl ⟨rfl, none ▸ size_zero⟩
  | infinity => omega
  | finite kept =>
      refine .inr ⟨_, _, kept, rfl, ?_⟩
      rw [← size_placeOf kept.isPlaced, ← placed, Int.toNat_natCast]

theorem RoundsFrom.pack {unpacked : UnpackedFloat} (rounds : RoundsFrom unpacked amount) :
    RoundsTo ⟨Float.Model.pack unpacked⟩ amount := by
  rcases rounds with ⟨signless, place, stands, nearest⟩
  have unsigned : IsUnsigned ⟨Float.Model.pack unpacked⟩ := signless.pack
  rw [IsUnsigned] at unsigned
  have placed := bits_of_place (place?_pack stands)
  exact ⟨place, by omega, nearest⟩

end

/-! ## Operations -/

section

variable {first second : Float} {left right : ℚ}

private theorem Measures.add (one : Measures first left) (other : Measures second right) :
    RoundsTo (first + second) (left + right) := by
  refine RoundsFrom.pack ?_
  rcases one.unpack with ⟨firstSame, rfl⟩ | ⟨_, _, firstKept, firstSame, rfl⟩ <;>
    rcases other.unpack with ⟨secondSame, rfl⟩ | ⟨_, _, secondKept, secondSame, rfl⟩ <;>
    rw [firstSame, secondSame]
  · exact (add_zero (0 : ℚ)).symm ▸ roundsFrom_zero
  · exact (zero_add (_ : ℚ)).symm ▸ roundsFrom_kept secondKept
  · exact (add_zero (_ : ℚ)).symm ▸ roundsFrom_kept firstKept
  · exact add_roundsFrom _ _

private theorem Measures.mul (one : Measures first left) (other : Measures second right) :
    RoundsTo (first * second) (left * right) := by
  refine RoundsFrom.pack ?_
  rcases one.unpack with ⟨firstSame, rfl⟩ | ⟨_, _, firstKept, firstSame, rfl⟩ <;>
    rcases other.unpack with ⟨secondSame, rfl⟩ | ⟨_, _, secondKept, secondSame, rfl⟩ <;>
    rw [firstSame, secondSame]
  · exact (mul_zero (0 : ℚ)).symm ▸ roundsFrom_zero
  · exact (zero_mul (_ : ℚ)).symm ▸ roundsFrom_zero
  · exact (mul_zero (_ : ℚ)).symm ▸ roundsFrom_zero
  · exact mul_roundsFrom _ _ (firstKept.hasDigits_mul secondKept)

theorem Measures.div (one : Measures first left) (other : Measures second right)
    (positive : 0 < right) : RoundsTo (first / second) (left / right) := by
  refine RoundsFrom.pack ?_
  rcases other.unpack with ⟨_, rfl⟩ | ⟨_, _, secondKept, secondSame, rfl⟩
  · exact absurd positive (lt_irrefl 0)
  · rcases one.unpack with ⟨firstSame, rfl⟩ | ⟨_, _, firstKept, firstSame, rfl⟩ <;>
      rw [firstSame, secondSame]
    · exact (zero_div (_ : ℚ)).symm ▸ roundsFrom_zero
    · exact div_roundsFrom _ _

theorem Measures.div_zero (one : Measures first left) (other : Measures second 0) :
    value (first / second) = if left = 0 then .undefined else .infinite false := by
  have quotient : first / second = ⟨Float.Model.pack (UnpackedFloat.div .binary64
      first.toModel.unpack second.toModel.unpack)⟩ := rfl
  rw [quotient]
  rcases other.unpack with ⟨secondSame, _⟩ | ⟨_, _, secondKept, _, same⟩
  · rcases one.unpack with ⟨firstSame, rfl⟩ | ⟨_, _, firstKept, firstSame, rfl⟩ <;>
      rw [firstSame, secondSame]
    · rw [if_pos rfl]
      rfl
    · have positive : (0 : ℚ) < _ := Nat.cast_pos.mpr firstKept.positive
      rw [if_neg (by positivity), UnpackedFloat.div]
      exact value_infinite_iff.mpr (by decide +kernel)
  · have positive : (0 : ℚ) < _ := Nat.cast_pos.mpr secondKept.positive
    exact absurd same (by positivity)

private theorem unpack_of_infinite {number : Float} (infinite : value number = .infinite false) :
    number.toModel.unpack = .infinity .positive := by
  have same : number = ⟨Float.Model.pack (.infinity .positive)⟩ :=
    bits_injective ((value_infinite_iff.mp infinite).trans (by decide +kernel))
  rw [same]
  rfl

private theorem unpack_of_undefined {number : Float} (undefined : value number = .undefined) :
    number.toModel.unpack = .notANumber := by
  have same : number = ⟨Float.Model.pack .notANumber⟩ :=
    bits_injective (bits_of_undefined ((value_undefined_iff number).mp undefined))
  rw [same]
  rfl

theorem Measures.add_infinite (one : Measures first left)
    (other : value second = .infinite false) : value (first + second) = .infinite false := by
  have sum : UnpackedFloat.add .binary64 first.toModel.unpack (.infinity .positive)
      = .infinity .positive := by
    rcases one.unpack with ⟨same, _⟩ | ⟨_, _, _, same, _⟩ <;> rw [same] <;> rfl
  change value ⟨Float.Model.pack (UnpackedFloat.add .binary64 first.toModel.unpack
    second.toModel.unpack)⟩ = _
  rw [unpack_of_infinite other, sum]
  exact value_infinite_iff.mpr (by decide +kernel)

theorem Measures.add_undefined (one : Measures first left)
    (other : value second = .undefined) : value (first + second) = .undefined := by
  have sum : UnpackedFloat.add .binary64 first.toModel.unpack .notANumber = .notANumber := by
    rcases one.unpack with ⟨same, _⟩ | ⟨_, _, _, same, _⟩ <;> rw [same] <;> rfl
  change value ⟨Float.Model.pack (UnpackedFloat.add .binary64 first.toModel.unpack
    second.toModel.unpack)⟩ = _
  rw [unpack_of_undefined other, sum]
  rfl

end

/-! ## Whole numbers -/

section

variable {whole : Nat}

private theorem exists_place_of_lt (below : whole < 2 ^ 53) :
    ∃ place < infinityPlace, size place = whole := by
  rcases Nat.eq_zero_or_pos whole with rfl | positive
  · exact ⟨0, by decide, size_zero⟩
  · have short : whole.log2 < 53 := (Nat.log2_lt positive.ne').mpr below
    have least : 2 ^ 52 ≤ whole * 2 ^ (52 - whole.log2) := by
      calc 2 ^ 52
        _ = 2 ^ whole.log2 * 2 ^ (52 - whole.log2) := by
          rw [← Nat.pow_add, Nat.add_sub_cancel' (by omega)]
        _ ≤ whole * 2 ^ (52 - whole.log2) :=
          Nat.mul_le_mul_right _ (Nat.log2_self_le positive.ne')
    have most : whole * 2 ^ (52 - whole.log2) < 2 ^ 53 := by
      calc whole * 2 ^ (52 - whole.log2)
        _ < 2 ^ (whole.log2 + 1) * 2 ^ (52 - whole.log2) :=
          Nat.mul_lt_mul_of_pos_right Nat.lt_log2_self (Nat.two_pow_pos _)
        _ = 2 ^ 53 := by
          rw [← Nat.pow_add]
          congr 1
          omega
    refine ⟨(placeOf (whole * 2 ^ (52 - whole.log2)) (0 - (52 - whole.log2 : Nat))).toNat, ?_, ?_⟩
    · rw [placeOf, infinityPlace]
      omega
    · rw [size_placeOf ⟨by omega, most, .inl least⟩, scaled_mantissa, zpow_zero, mul_one]

private theorem toFloat_roundsTo (count : UInt64) : RoundsTo count.toFloat count.toNat := by
  have packed : count.toFloat = ⟨Float.Model.pack
      (UnpackedFloat.normalize .binary64 (count.toNat : Int) 0 .positive)⟩ := rfl
  rw [packed]
  apply RoundsFrom.pack
  rcases Nat.eq_zero_or_pos count.toNat with none | positive
  · rw [none]
    exact (Nat.cast_zero (R := ℚ)).symm ▸ roundsFrom_zero
  · rw [normalize_of_pos positive]
    simpa using round_roundsFrom positive 0

theorem one_measures : Measures 1 1 :=
  ⟨2 ^ 52, -52, rfl, by norm_num⟩

private theorem ofScientific_roundsFrom (whole : Nat) :
    RoundsFrom (UnpackedFloat.ofScientific .binary64 whole 0) whole := by
  have shifted : Format.binary64.mantissaBits = 53 := rfl
  have huge : (2 : Int) ^ Format.binary64.exponentBits = 2048 := rfl
  rw [UnpackedFloat.ofScientific]
  split
  next none => exact none ▸ (Nat.cast_zero (R := ℚ)).symm ▸ roundsFrom_zero
  next some =>
    -- With 53 further digits the mantissa is long enough for the rounding of a product.
    have positive : 0 < whole <<< 53 := by
      rw [Nat.shiftLeft_eq]
      omega
    have digits : HasDigits (whole <<< 53 * 10 ^ (0 : Int).toNat) (-53 + 0) := by
      refine hasDigits_of_le ?_ _
      rw [Nat.shiftLeft_eq]
      change 2 ^ 52 ≤ whole * 2 ^ 53 * 1
      omega
    have same : ((whole <<< 53 : Nat) : ℚ) * 2 ^ (-53 : Int)
        * ((10 ^ (0 : Int).toNat : Nat) * 2 ^ (0 : Int)) = whole := by
      rw [Nat.shiftLeft_eq]
      norm_num
      ring
    rw [if_neg (by omega), if_neg (by omega), if_pos le_rfl]
    exact same ▸ mul_roundsFrom positive (by decide) digits

theorem toFloat_measures (below : whole < 2 ^ 53) : Measures whole.toUInt64.toFloat whole := by
  have counts : (whole.toUInt64).toNat = whole := by
    simp
    omega
  rcases exists_place_of_lt below with ⟨place, within, same⟩
  have counted := toFloat_roundsTo whole.toUInt64
  rw [counts, ← same] at counted
  exact same ▸ counted.measures within

theorem ofDecimal_roundsTo (whole : Nat) : RoundsTo (ofDecimal whole 0) whole := by
  rw [ofDecimal, Float.ofScientific]
  split
  next short => exact div_one (whole : ℚ) ▸ (toFloat_measures short.1).div one_measures one_pos
  next => exact (ofScientific_roundsFrom whole).pack

theorem ofScientific_roundsTo (whole : Nat) :
    RoundsTo (Float.ofScientific whole false 0) whole := by
  rw [Float.ofScientific]
  split
  next short => exact mul_one (whole : ℚ) ▸ (toFloat_measures short.1).mul one_measures
  next => exact (ofScientific_roundsFrom whole).pack

end

/-! ## Powers of two -/

def AtMost (number : Float) (most : Int) : Prop :=
  ∃ amount, Measures number amount ∧ amount ≤ 2 ^ most

/-- A number between two powers of two, or zero where it is not positive. -/
def Spans (number : Float) (least most : Int) (positive : Prop) : Prop :=
  ∃ amount, Measures number amount ∧ amount ≤ 2 ^ most ∧
    (positive → 2 ^ least ≤ amount) ∧ (¬positive → amount = 0)

section

variable {first second : Float} {least most lower upper : Int} {positive also : Prop}

private theorem Measures.unique {number : Float} {amount other : ℚ} (own : Measures number amount)
    (also : Measures number other) : amount = other :=
  (measures_iff.mp own).2.trans (measures_iff.mp also).2.symm

theorem Measures.nonneg {number : Float} {amount : ℚ} (own : Measures number amount) :
    0 ≤ amount :=
  (measures_iff.mp own).2 ▸ size_nonneg _

private theorem measures_zero {number : Float} (rounds : RoundsTo number 0) :
    Measures number 0 := by
  have own := (size_zero.symm ▸ rounds : RoundsTo number (size 0)).measures (by decide)
  rwa [size_zero] at own

theorem Spans.atMost (own : Spans first least most positive) : AtMost first most := by
  rcases own with ⟨amount, measured, within, _⟩
  exact ⟨amount, measured, within⟩

theorem Spans.pos_iff (own : Spans first least most positive) :
    ∃ amount, Measures first amount ∧ (0 < amount ↔ positive) := by
  rcases own with ⟨amount, measured, _, above, zero⟩
  refine ⟨amount, measured, fun greater => ?_, fun holds => ?_⟩
  · by_contra fails
    exact greater.ne' (zero fails)
  · exact lt_of_lt_of_le (by positivity) (above holds)

theorem Spans.congr (own : Spans first least most positive) (same : positive ↔ also) :
    Spans first least most also :=
  propext same ▸ own

theorem Spans.widen (own : Spans first least most positive)
    (range : lower ≤ least ∧ most ≤ upper) : Spans first lower upper positive := by
  rcases own with ⟨amount, measured, within, above, zero⟩
  refine ⟨amount, measured, ?_, fun holds => ?_, zero⟩
  · exact within.trans (zpow_le_zpow_right₀ (by norm_num) range.2)
  · exact (zpow_le_zpow_right₀ (by norm_num) range.1).trans (above holds)

theorem AtMost.mono (own : AtMost first most) (le : most ≤ upper) : AtMost first upper := by
  rcases own with ⟨amount, measured, within⟩
  exact ⟨amount, measured, within.trans (zpow_le_zpow_right₀ (by norm_num) le)⟩

theorem AtMost.add (one : AtMost first most) (other : AtMost second most)
    (range : -1022 ≤ most + 1 ∧ most + 1 ≤ 1023) : AtMost (first + second) (most + 1) := by
  rcases one with ⟨left, leftMeasured, leftWithin⟩
  rcases other with ⟨right, rightMeasured, rightWithin⟩
  refine (leftMeasured.add rightMeasured).atMost range.1 range.2 ?_
  rw [zpow_add_one₀ (by norm_num)]
  linarith

theorem AtMost.mul (one : AtMost first most) (other : AtMost second upper)
    (range : -1022 ≤ most + upper ∧ most + upper ≤ 1023) :
    AtMost (first * second) (most + upper) := by
  rcases one with ⟨left, leftMeasured, leftWithin⟩
  rcases other with ⟨right, rightMeasured, rightWithin⟩
  refine (leftMeasured.mul rightMeasured).atMost range.1 range.2 ?_
  rw [zpow_add₀ (by norm_num)]
  exact mul_le_mul leftWithin rightWithin rightMeasured.nonneg (by positivity)

private theorem RoundsTo.spans {amount : ℚ} (rounds : RoundsTo first amount)
    (range : -1022 ≤ least ∧ -1022 ≤ most ∧ most ≤ 1023) (within : amount ≤ 2 ^ most)
    (atLeast : positive → 2 ^ least ≤ amount) (none : ¬positive → amount = 0) :
    Spans first least most positive := by
  rcases rounds.atMost range.2.1 range.2.2 within with ⟨other, measured, otherWithin⟩
  refine ⟨other, measured, otherWithin, fun holds => ?_, fun fails => ?_⟩
  · exact rounds.atLeast measured range.1 (atLeast holds)
  · exact measured.unique (measures_zero (none fails ▸ rounds))

theorem Spans.mul (one : Spans first least most positive) (other : Spans second lower upper also)
    (range : -1022 ≤ least + lower ∧ -1022 ≤ most + upper ∧ most + upper ≤ 1023) :
    Spans (first * second) (least + lower) (most + upper) (positive ∧ also) := by
  rcases one with ⟨left, leftMeasured, leftWithin, leftAbove, leftZero⟩
  rcases other with ⟨right, rightMeasured, rightWithin, rightAbove, rightZero⟩
  refine (leftMeasured.mul rightMeasured).spans range ?_ (fun both => ?_) fun fails => ?_
  · rw [zpow_add₀ (by norm_num)]
    exact mul_le_mul leftWithin rightWithin rightMeasured.nonneg (by positivity)
  · rw [zpow_add₀ (by norm_num)]
    exact mul_le_mul (leftAbove both.1) (rightAbove both.2) (by positivity) leftMeasured.nonneg
  · rw [mul_eq_zero]
    exact (not_and_or.mp fails).imp leftZero rightZero

theorem Spans.div (one : Spans first least most positive) (other : Spans second lower upper also)
    (nonzero : also)
    (range : -1022 ≤ least - upper ∧ -1022 ≤ most - lower ∧ most - lower ≤ 1023) :
    Spans (first / second) (least - upper) (most - lower) positive := by
  rcases one with ⟨left, leftMeasured, leftWithin, leftAbove, leftZero⟩
  rcases other with ⟨right, rightMeasured, rightWithin, rightAbove, _⟩
  have above := rightAbove nonzero
  have divides : 0 < right := lt_of_lt_of_le (by positivity) above
  refine (leftMeasured.div rightMeasured divides).spans range ?_ (fun holds => ?_) fun fails => ?_
  · rw [zpow_sub₀ (by norm_num)]
    exact div_le_div₀ (by positivity) leftWithin (by positivity) above
  · rw [zpow_sub₀ (by norm_num)]
    exact div_le_div₀ leftMeasured.nonneg (leftAbove holds) divides rightWithin
  · rw [leftZero fails, zero_div]

theorem ofDecimal_spans {whole : Nat} (within : whole ≤ 2 ^ 64) :
    Spans (ofDecimal whole 0) 0 64 (whole ≠ 0) := by
  refine (ofDecimal_roundsTo whole).spans (by decide) ?_ (fun some => ?_) fun none => ?_
  · exact_mod_cast within
  · exact_mod_cast Nat.one_le_iff_ne_zero.mpr some
  · rw [not_not.mp none, Nat.cast_zero]

end

end TimedText.Number
