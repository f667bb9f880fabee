import TimedText.Proofs.Number.Arithmetic
import TimedText.Proofs.Number.Reading
/-!
Decimals. The number that digits with a point among them name is the one nearest to the exact
decimal, and so it is greater than a number if and only if the decimal is past the midpoint
after that one.
-/

namespace TimedText.Number

open Float.Model Float.Model.UnpackedFloat

/-! ## Powers of ten -/

private theorem power_measures (power : Fin 23) :
    Measures Float.exactlyRepresentablePowersOfTen[power] (10 ^ power.val) := by
  have table : ∀ power : Fin 23,
      let place := bits Float.exactlyRepresentablePowersOfTen[power]
      place < infinityPlace ∧ 2 ^ 52 ≤ place ∧ 1023 ≤ place / 2 ^ 52 ∧
        (place % 2 ^ 52 + 2 ^ 52) * 2 ^ (place / 2 ^ 52 - 1023) = 10 ^ power.val * 2 ^ 52 := by
    decide +kernel
  rcases table power with ⟨within, normal, least, same⟩
  generalize Float.exactlyRepresentablePowersOfTen[power] = number at *
  refine measures_iff.mpr ⟨within, ?_⟩
  have exponent : ((bits number / 2 ^ 52 : Nat) : Int) - 1075
      = (bits number / 2 ^ 52 - 1023 : Nat) - (52 : Nat) := by omega
  rw [size, if_neg (not_lt.mpr normal), exponent, zpow_sub₀ (by norm_num), ← mul_div_assoc,
    eq_div_iff (by positivity), zpow_natCast, zpow_natCast]
  exact_mod_cast same.symm

/-! ## Digits and places -/

section

variable {digits places : Nat}

private theorem isNearest_zero {amount : ℚ} (small : 2 * amount ≤ size 1) : IsNearest amount 0 where
  before other _ := Nat.zero_le other
  after other past := by
    have first := size_strictMono.monotone (Nat.le_add_left 1 other)
    have least := size_nonneg other
    linarith
  even _ _ := rfl

private theorem tiny_of_places (long : 400 + digits.log2 < places) :
    2 * ((digits : ℚ) / 10 ^ places) ≤ size 1 := by
  have least : (2 : ℚ) ^ (-1074 : Int) = size 1 := by simp [size]
  have few : (digits : ℚ) ≤ 2 ^ (digits.log2 + 1) := by exact_mod_cast Nat.lt_log2_self.le
  have many : (2 : ℚ) ^ (digits.log2 + 1076) ≤ 10 ^ places := by
    calc (2 : ℚ) ^ (digits.log2 + 1076)
      _ ≤ 2 ^ (digits.log2 + 3 * 400) := pow_le_pow_right₀ (by norm_num) (by omega)
      _ = 2 ^ digits.log2 * (2 ^ 3) ^ 400 := by rw [pow_add, pow_mul]
      _ ≤ 10 ^ digits.log2 * 10 ^ 400 := by gcongr <;> norm_num
      _ = 10 ^ (digits.log2 + 400) := (pow_add _ _ _).symm
      _ ≤ 10 ^ places := pow_le_pow_right₀ (by norm_num) (by omega)
  rw [← least, ← mul_div_assoc, div_le_iff₀ (by positivity)]
  calc 2 * (digits : ℚ)
    _ ≤ 2 * 2 ^ (digits.log2 + 1) := by linarith
    _ ≤ 2 ^ (-1074 : Int) * 2 ^ (digits.log2 + 1076) := by
      rw [← pow_succ', ← zpow_natCast, ← zpow_natCast, ← zpow_add₀ (by norm_num)]
      exact zpow_le_zpow_right₀ (by norm_num) (by push_cast; omega)
    _ ≤ 2 ^ (-1074 : Int) * 10 ^ places := mul_le_mul_of_nonneg_left many (by positivity)

private theorem ofScientific_roundsFrom_div (begun : places ≠ 0) :
    RoundsFrom (UnpackedFloat.ofScientific .binary64 digits (Int.negOfNat places))
      (digits / 10 ^ places) := by
  have huge : (2 : Int) ^ Format.binary64.exponentBits = 2048 := rfl
  have exponent : Int.negOfNat places = -(places : Int) := Int.negOfNat_eq
  rw [UnpackedFloat.ofScientific, exponent]
  split
  next none => exact none ▸ (by simpa using roundsFrom_zero)
  next some =>
    rw [if_neg (by omega)]
    split
    next long => exact ⟨rfl, 0, .zero _, isNearest_zero (tiny_of_places (by omega))⟩
    next =>
      have power : 0 < 10 ^ (- -(places : Int)).toNat := by positivity
      have quotient := @div_roundsFrom _ _ 0 0 (Nat.pos_of_ne_zero some) power
      rw [if_neg (by omega)]
      simpa using quotient

theorem ofDecimal_roundsTo_div (digits places : Nat) :
    RoundsTo (ofDecimal digits places) (digits / 10 ^ places) := by
  rcases Nat.eq_zero_or_pos places with rfl | begun
  · simpa using ofDecimal_roundsTo digits
  · rw [ofDecimal, Float.ofScientific]
    split
    next short =>
      exact (toFloat_measures short.1).div (power_measures ⟨places, by omega⟩) (by positivity)
    next => exact (ofScientific_roundsFrom_div begun.ne').pack

end

theorem RoundsTo.unique {number other : Float} {amount : ℚ} (own : RoundsTo number amount)
    (also : RoundsTo other amount) : number = other := by
  rcases own with ⟨place, placed, nearest⟩
  rcases also with ⟨another, alsoPlaced, alsoNearest⟩
  rw [nearest.unique alsoNearest] at placed
  exact bits_injective (placed.trans alsoPlaced.symm)

private theorem zero_roundsTo {amount : ℚ} (small : 2 * amount ≤ size 1) : RoundsTo 0 amount :=
  ⟨0, by decide +kernel, isNearest_zero small⟩

/-! ## Numerals -/

def Numeral.amount (numeral : Numeral) : ℚ :=
  Text.digitsValue 10 (numeral.whole ++ numeral.fraction.getD [])
    / 10 ^ (numeral.fraction.getD []).length

private theorem scaled_roundsTo (digits places : Nat) :
    RoundsTo (scaled digits (0 - places)) (digits / 10 ^ places) := by
  rw [scaled.eq_def]
  split
  next none =>
    refine zero_roundsTo ?_
    rw [none, Nat.cast_zero, zero_div, mul_zero]
    exact size_nonneg 1
  next some =>
    rw [if_neg (by omega)]
    cases places with
    | zero =>
        change RoundsTo (Float.ofScientific digits false 0) _
        simpa using ofScientific_roundsTo digits
    | succ places =>
        have exponent : (0 : Int) - (places + 1 : Nat) = .negSucc places := by omega
        rw [exponent]
        dsimp only
        split
        next long => exact zero_roundsTo (tiny_of_places (by omega))
        next => exact ofDecimal_roundsTo_div digits (places + 1)

/-- What a numeral is read as is the number nearest to its exact value. -/
theorem read?_numeral {numeral : Numeral} (written : numeral.IsWritten) :
    ∃ number, read? (String.ofList numeral.chars) = some number ∧
      RoundsTo number numeral.amount :=
  ⟨_, read?_chars written, scaled_roundsTo _ _⟩

/-! ## Comparing with a bound -/

section

variable {bound number : Float} {amount : ℚ} {place : Nat}

private theorem IsNearest.lt_iff {other : Nat} (nearest : IsNearest amount place)
    (even : other % 2 = 0) : other < place ↔ size other + size (other + 1) < 2 * amount := by
  refine ⟨fun past => ?_, nearest.after other⟩
  by_contra within
  rcases (not_lt.mp within).lt_or_eq with below | middle
  · exact past.not_ge (nearest.before other below)
  · have step := size_strictMono (show other < other + 1 + 1 by omega)
    have next := nearest.before (other + 1) (by linarith)
    have rounded := nearest.even other middle
    omega

private theorem RoundsTo.less_iff (rounds : RoundsTo number amount) (placed : bits bound = place)
    (within : place < infinityPlace) (even : place % 2 = 0) :
    less bound number = true ↔ size place + size (place + 1) < 2 * amount := by
  rcases rounds with ⟨other, same, nearest⟩
  rw [← nearest.lt_iff even, less, place?_of_bits (placed.trans_le within.le),
    place?_of_bits (same.trans_le (min_le_right _ _))]
  simp only [decide_eq_true_eq, Nat.cast_lt]
  omega

end

theorem hundred_less_ofDecimal_iff (digits places : Nat) :
    less 100 (ofDecimal digits places) = true ↔
      100 + 1 / 2 ^ 47 < (digits : ℚ) / 10 ^ places := by
  have placed : IsPlaced (100 * 2 ^ 46) (-46) := ⟨by decide, by decide, .inl (by decide)⟩
  have same : bits 100 = (placeOf (100 * 2 ^ 46) (-46)).toNat := by decide +kernel
  rw [(ofDecimal_roundsTo_div digits places).less_iff same (by decide) (by decide),
    size_placeOf placed, size_placeOf_succ placed, zpow_neg]
  have middle : ((100 * 2 ^ 46 : Nat) : ℚ) * (2 ^ (46 : Int))⁻¹
      + (100 * 2 ^ 46 + 1 : Nat) * (2 ^ (46 : Int))⁻¹ = 2 * (100 + 1 / 2 ^ 47) := by norm_num
  rw [middle, mul_lt_mul_iff_right₀ (by norm_num)]

end TimedText.Number
