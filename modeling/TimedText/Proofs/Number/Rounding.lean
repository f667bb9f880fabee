import TimedText.Proofs.Number.Size
/-!
Rounding to the nearest number. The result of an operation is at the place nearest to the exact
result, at the even one of two that are as near. From it being on the same side of each other
number follow all bounds.
-/

namespace TimedText.Number

open Float.Model Float.Model.UnpackedFloat

/-! ## The nearest place -/

/-- A place is on the side of each midpoint between two places on which the amount is; the
nearest place to a midpoint itself is even. -/
structure IsNearest (amount : ℚ) (place : Nat) : Prop where
  before : ∀ other, 2 * amount < size other + size (other + 1) → place ≤ other
  after : ∀ other, size other + size (other + 1) < 2 * amount → other < place
  even : ∀ other, 2 * amount = size other + size (other + 1) → place % 2 = 0

section

variable {amount : ℚ} {place other : Nat}

theorem IsNearest.le (nearest : IsNearest amount place) (most : amount ≤ size other) :
    place ≤ other := by
  have step := size_strictMono (Nat.lt_succ_self other)
  exact nearest.before other (by rw [Nat.succ_eq_add_one] at step; linarith)

theorem IsNearest.ge (nearest : IsNearest amount place) (least : size other ≤ amount) :
    other ≤ place := by
  cases other with
  | zero => exact Nat.zero_le _
  | succ before =>
      have step := size_strictMono (Nat.lt_succ_self before)
      exact nearest.after before (by rw [Nat.succ_eq_add_one] at step; linarith)

theorem IsNearest.eq (nearest : IsNearest (size other) place) : place = other :=
  Nat.le_antisymm (nearest.le le_rfl) (nearest.ge le_rfl)

/-- Two nearest places are not apart: with a midpoint between them, the amount would have to be
there, and only one of the places next to it is even. -/
private theorem IsNearest.ge_of_isNearest (nearest : IsNearest amount place)
    (also : IsNearest amount other) : other ≤ place := by
  rcases lt_trichotomy (2 * amount) (size place + size (place + 1)) with below | same | above
  · exact also.before place below
  · have step := size_strictMono (show place < place + 1 + 1 by omega)
    have most := also.before (place + 1) (by linarith)
    have even := nearest.even place same
    have alsoEven := also.even place same
    omega
  · exact absurd (nearest.after place above) (Nat.lt_irrefl place)

theorem IsNearest.unique (nearest : IsNearest amount place) (also : IsNearest amount other) :
    place = other :=
  Nat.le_antisymm (also.ge_of_isNearest nearest) (nearest.ge_of_isNearest also)

private theorem isNearest_of_between (least : Nat) (atLeast : size least ≤ amount)
    (below : amount < size (least + 1))
    (rounded : (place = least ∧ 2 * amount < size least + size (least + 1)) ∨
      (place = least + 1 ∧ size least + size (least + 1) < 2 * amount) ∨
      (place = least + least % 2 ∧ 2 * amount = size least + size (least + 1))) :
    IsNearest amount place := by
  have smaller {other : Nat} (lt : other < least) :
      size other + size (other + 1) < 2 * amount := by
    have first := size_strictMono lt
    have second := size_strictMono.monotone (Nat.succ_le_of_lt lt)
    rw [Nat.succ_eq_add_one] at second
    linarith
  have greater {other : Nat} (lt : least < other) :
      2 * amount < size other + size (other + 1) := by
    have first := size_strictMono.monotone (Nat.succ_le_of_lt lt)
    have second := size_strictMono (Nat.lt_succ_self other)
    rw [Nat.succ_eq_add_one] at first second
    linarith
  have bounds : least ≤ place ∧ place ≤ least + 1 := by omega
  refine ⟨fun other lt => ?_, fun other lt => ?_, fun other same => ?_⟩
  · rcases Nat.lt_trichotomy other least with under | rfl | past
    · exact absurd lt (smaller under).not_gt
    · rcases rounded with ⟨rfl, _⟩ | ⟨_, contrary⟩ | ⟨_, contrary⟩
      · exact le_rfl
      · exact absurd lt contrary.not_gt
      · exact absurd contrary lt.ne
    · omega
  · rcases Nat.lt_trichotomy other least with under | rfl | past
    · omega
    · rcases rounded with ⟨_, contrary⟩ | ⟨rfl, _⟩ | ⟨_, contrary⟩
      · exact absurd lt contrary.not_gt
      · exact Nat.lt_succ_self _
      · exact absurd contrary lt.ne'
    · exact absurd lt (greater past).not_gt
  · rcases Nat.lt_trichotomy other least with under | rfl | past
    · exact absurd same (smaller under).ne'
    · rcases rounded with ⟨_, contrary⟩ | ⟨_, contrary⟩ | ⟨rfl, _⟩
      · exact absurd same contrary.ne
      · exact absurd same contrary.ne'
      · omega
    · exact absurd same (greater past).ne

private theorem isNearest_size (place : Nat) : IsNearest (size place) place := by
  have step := size_strictMono (Nat.lt_succ_self place)
  rw [Nat.succ_eq_add_one] at step
  exact isNearest_of_between place le_rfl step (.inl ⟨rfl, by linarith⟩)

end

/-! ## Digits that are cut off -/

/-- A mantissa with its round bit, counted in halves. -/
def halves (extended : ExtendedMantissa) : Nat :=
  2 * extended.mantissa + extended.roundBit.toNat

/-- The whole halves of an amount are left, and the sticky bit tells whether there was more. -/
structure IsCutFrom (extended : ExtendedMantissa) (amount : ℚ) : Prop where
  atLeast : (halves extended : ℚ) ≤ 2 * amount
  below : 2 * amount < halves extended + 1
  sticky : extended.stickyBit = false ↔ 2 * amount = halves extended

section

variable {extended : ExtendedMantissa} {amount : ℚ}

private theorem halves_shiftRightOne : halves extended.shiftRightOne = extended.mantissa := by
  rw [halves, ExtendedMantissa.shiftRightOne]
  rcases Nat.mod_two_eq_zero_or_one extended.mantissa with even | odd
  · simp only [even, bne_self_eq_false, Bool.toNat_false]
    omega
  · have round : (1 != 0) = true := rfl
    simp only [odd, round, Bool.toNat_true]
    omega

private theorem halves_cases (extended : ExtendedMantissa) :
    (extended.roundBit = false ∧ (halves extended : ℚ) = 2 * extended.mantissa) ∨
      (extended.roundBit = true ∧ (halves extended : ℚ) = 2 * extended.mantissa + 1) := by
  rw [halves]
  cases extended.roundBit <;> simp

private theorem IsCutFrom.shiftRightOne (cut : IsCutFrom extended amount) :
    IsCutFrom extended.shiftRightOne (amount / 2) := by
  have atLeast := cut.atLeast
  have below := cut.below
  have double : 2 * (amount / 2) = amount := by ring
  rcases halves_cases extended with ⟨noHalf, same⟩ | ⟨half, same⟩
  · constructor <;> rw [halves_shiftRightOne, double]
    · linarith
    · linarith
    · have more := cut.sticky
      simp only [ExtendedMantissa.shiftRightOne, noHalf, Bool.false_or]
      rw [more, same]
      constructor <;> intro <;> linarith
  · constructor <;> rw [halves_shiftRightOne, double]
    · linarith
    · linarith
    · simp only [ExtendedMantissa.shiftRightOne, half, Bool.true_or, Bool.true_eq_false,
        false_iff]
      intro whole
      linarith

private theorem IsCutFrom.shiftRight (cut : IsCutFrom extended amount) (count : Nat) :
    IsCutFrom (extended >>> count) (amount / 2 ^ count) := by
  induction count with
  | zero => rwa [pow_zero, div_one]
  | succ count induction =>
      rw [pow_succ, ← div_div]
      exact induction.shiftRightOne

private theorem IsCutFrom.bounds (cut : IsCutFrom extended amount) :
    (extended.mantissa : ℚ) ≤ amount ∧ amount < extended.mantissa + 1 := by
  have atLeast := cut.atLeast
  have below := cut.below
  rcases halves_cases extended with ⟨_, same⟩ | ⟨_, same⟩ <;> rw [same] at atLeast below <;>
    constructor <;> linarith

private theorem IsCutFrom.rounded (cut : IsCutFrom extended amount) :
    (extended.roundedMantissa = extended.mantissa ∧ 2 * amount < 2 * extended.mantissa + 1) ∨
      (extended.roundedMantissa = extended.mantissa + 1 ∧
        2 * extended.mantissa + 1 < 2 * amount) ∨
      (extended.roundedMantissa = extended.mantissa + extended.mantissa % 2 ∧
        2 * amount = 2 * extended.mantissa + 1) := by
  have atLeast := cut.atLeast
  have below := cut.below
  have sticky := cut.sticky
  rcases extended with ⟨mantissa, roundBit, stickyBit⟩
  cases roundBit with
  | false =>
      have whole : (halves ⟨mantissa, false, stickyBit⟩ : ℚ) = 2 * mantissa := by simp [halves]
      rw [whole] at below
      exact .inl ⟨by cases stickyBit <;> rfl, below⟩
  | true =>
      have whole : (halves ⟨mantissa, true, stickyBit⟩ : ℚ) = 2 * mantissa + 1 := by
        simp [halves]
      rw [whole] at atLeast sticky
      cases stickyBit with
      | false => exact .inr (.inr ⟨rfl, sticky.mp rfl⟩)
      | true =>
          have apart : 2 * amount ≠ 2 * mantissa + 1 := fun middle =>
            Bool.noConfusion (sticky.mpr middle)
          exact .inr (.inl ⟨rfl, lt_of_le_of_ne atLeast apart.symm⟩)

private theorem IsCutFrom.isNearest (cut : IsCutFrom extended amount) {exponent : Int}
    (placed : IsPlaced extended.mantissa exponent) :
    IsNearest (amount * 2 ^ exponent) (placeOf extended.roundedMantissa exponent).toNat := by
  have unit : (0 : ℚ) < 2 ^ exponent := by positivity
  have least := placed.least
  have here := size_placeOf placed
  have next := size_placeOf_succ placed
  rw [Nat.cast_add, Nat.cast_one] at next
  have middle : size (placeOf extended.mantissa exponent).toNat
      + size ((placeOf extended.mantissa exponent).toNat + 1)
      = (2 * extended.mantissa + 1) * 2 ^ exponent := by
    rw [here, next]
    ring
  refine isNearest_of_between (placeOf extended.mantissa exponent).toNat ?_ ?_ ?_
  · rw [here, mul_le_mul_iff_left₀ unit]
    exact cut.bounds.1
  · rw [next, mul_lt_mul_iff_left₀ unit]
    exact cut.bounds.2
  · rw [middle, ← mul_assoc, mul_lt_mul_iff_left₀ unit, mul_lt_mul_iff_left₀ unit,
      mul_left_inj' unit.ne']
    -- The parity of a place is that of its mantissa, since a binade has an even number of places.
    rcases cut.rounded with ⟨same, below⟩ | ⟨same, above⟩ | ⟨same, half⟩ <;> rw [same]
    · exact .inl ⟨rfl, below⟩
    · exact .inr (.inl ⟨by rw [placeOf, placeOf]; omega, above⟩)
    · exact .inr (.inr ⟨by rw [placeOf, placeOf]; omega, half⟩)

end

/-! ## Unpacked numbers -/

def RoundsFrom (unpacked : UnpackedFloat) (amount : ℚ) : Prop :=
  Signless unpacked ∧ ∃ place : Nat, Stands unpacked place ∧ IsNearest amount place

theorem roundsFrom_zero : RoundsFrom (.zero .positive) 0 :=
  ⟨rfl, 0, .zero _, size_zero ▸ isNearest_size 0⟩

private theorem placeOf_nonneg {mantissa : Nat} {exponent : Int} (least : -1074 ≤ exponent) :
    0 ≤ placeOf mantissa exponent := by
  rw [placeOf]
  omega

theorem roundsFrom_kept {mantissa : Nat} {exponent : Int} (kept : IsKept mantissa exponent) :
    RoundsFrom (.finite .positive mantissa exponent kept.positive) (mantissa * 2 ^ exponent) := by
  refine ⟨rfl, (placeOf mantissa exponent).toNat, ?_, ?_⟩
  · rw [Int.toNat_of_nonneg (placeOf_nonneg kept.least)]
    exact .finite kept
  · exact size_placeOf kept.isPlaced ▸ isNearest_size _

section

variable {mantissa : Nat} {exponent : Int} {accuracy : Accuracy} {amount : ℚ}

/-- A mantissa has all the digits that are wanted of it, or the exponent is so low that
fewer are. -/
def HasDigits (mantissa : Nat) (exponent : Int) : Prop :=
  52 ≤ mantissa.log2 ∨ exponent ≤ -1074

private theorem shiftToTargetExponent_isCutFrom (exponent : Int)
    (own : IsCutFrom (.ofMantissaAndAccuracy mantissa accuracy) amount) :
    IsCutFrom (shiftToTargetExponent .binary64 mantissa exponent accuracy).1
      (amount / 2 ^ cutDigits mantissa exponent) := by
  rw [shiftToTargetExponent, targetExponent_eq]
  exact own.shiftRight _

private theorem shiftToTargetExponent_isPlaced (digits : HasDigits mantissa exponent) :
    IsPlaced (mantissa / 2 ^ cutDigits mantissa exponent)
      (exponent + cutDigits mantissa exponent) := by
  have cut : mantissa.log2 ≤ 52 + cutDigits mantissa exponent ∧
      (mantissa.log2 = 52 + cutDigits mantissa exponent ∨
        exponent + cutDigits mantissa exponent = -1074) := by
    rw [HasDigits] at digits
    rw [cutDigits]
    omega
  refine ⟨?_, div_lt_of_log2 cut.1, cut.2.imp_left le_div_of_log2⟩
  rw [cutDigits]
  omega

theorem roundWithAccuracy_roundsFrom
    (own : IsCutFrom (.ofMantissaAndAccuracy mantissa accuracy) amount)
    (digits : HasDigits mantissa exponent) :
    RoundsFrom (roundWithAccuracy .binary64 .positive mantissa exponent accuracy)
      (amount * 2 ^ exponent) := by
  refine ⟨roundWithAccuracy_signless _ _ _, ?_⟩
  have cut := shiftToTargetExponent_isCutFrom exponent own
  have placed := shiftToTargetExponent_isPlaced digits
  have left := shiftToTargetExponent_mantissa mantissa exponent accuracy
  have last := shiftToTargetExponent_exponent mantissa exponent accuracy
  rcases shifted : shiftToTargetExponent .binary64 mantissa exponent accuracy
    with ⟨extended, reached⟩
  rw [shifted] at cut left last
  dsimp only at cut left last
  rw [← left, ← last] at placed
  have nearest := cut.isNearest placed
  have same : amount / 2 ^ cutDigits mantissa exponent * 2 ^ reached = amount * 2 ^ exponent := by
    rw [last, zpow_add₀ (by norm_num), zpow_natCast]
    field_simp
  rw [same] at nearest
  have rounded := roundedMantissa_bounds extended
  -- What is rounded to nothing has the lowest exponent, and so its place is that of zero.
  rcases Nat.eq_zero_or_pos extended.roundedMantissa with none | positive
  · have lowest : reached = -1074 := placed.normal.resolve_left (by omega)
    refine ⟨0, ?_, ?_⟩
    · have nothing := shiftToTargetExponent_mantissa extended.roundedMantissa reached .exact
      rw [none, Nat.zero_div] at nothing
      rw [roundWithAccuracy, shifted]
      dsimp only
      rw [none, dif_pos nothing]
      exact .zero _
    · rwa [none, lowest] at nearest
  · refine ⟨_, ?_, nearest⟩
    rw [Int.toNat_of_nonneg (placeOf_nonneg placed.least)]
    refine roundWithAccuracy_stands shifted positive placed.least ?_ ?_
    · have below := placed.below
      omega
    · exact placed.normal.imp_left fun normal => by omega

private theorem isCutFrom_exact (mantissa : Nat) :
    IsCutFrom (.ofMantissaAndAccuracy mantissa .exact) mantissa := by
  have whole : halves (.ofMantissaAndAccuracy mantissa .exact) = 2 * mantissa := by
    rw [halves]
    rfl
  refine ⟨?_, ?_, iff_of_true rfl ?_⟩ <;> rw [whole] <;> push_cast <;> linarith

theorem scaled_mantissa (mantissa shift : Nat) (exponent : Int) :
    ((mantissa * 2 ^ shift : Nat) : ℚ) * 2 ^ (exponent - shift) = mantissa * 2 ^ exponent := by
  rw [zpow_sub₀ (by norm_num), zpow_natCast]
  push_cast
  field_simp

theorem round_roundsFrom (positive : 0 < mantissa) (exponent : Int) :
    RoundsFrom (UnpackedFloat.round .binary64 .positive mantissa exponent)
      (mantissa * 2 ^ exponent) := by
  rw [UnpackedFloat.round, targetExponent_eq, decreaseExponent, Nat.shiftLeft_eq]
  dsimp only
  rcases lowered : (exponent - max (mantissa.log2 + exponent - 52) (-1074)).toNat with _ | shift
  · have digits : HasDigits mantissa exponent := by
      rw [HasDigits]
      omega
    simpa using roundWithAccuracy_roundsFrom (isCutFrom_exact mantissa) digits
  · have longer := log2_add_le positive (le_refl (mantissa * 2 ^ (shift + 1)))
    have digits : HasDigits (mantissa * 2 ^ (shift + 1)) (exponent - (shift + 1 : Nat)) := by
      rw [HasDigits]
      omega
    rw [← scaled_mantissa mantissa (shift + 1) exponent]
    exact roundWithAccuracy_roundsFrom (isCutFrom_exact _) digits

end

/-! ## Arithmetic -/

section

variable {first second : Nat} {firstExponent secondExponent : Int}

theorem hasDigits_of_le {mantissa : Nat} (long : 2 ^ 52 ≤ mantissa) (exponent : Int) :
    HasDigits mantissa exponent :=
  .inl ((Nat.le_log2 (by omega)).mpr long)

theorem IsKept.hasDigits_mul (firstKept : IsKept first firstExponent)
    (secondKept : IsKept second secondExponent) :
    HasDigits (first * second) (firstExponent + secondExponent) := by
  rcases firstKept.normal with long | firstLowest
  · exact hasDigits_of_le (long.trans (Nat.le_mul_of_pos_right _ secondKept.positive)) _
  · rcases secondKept.normal with long | secondLowest
    · exact hasDigits_of_le (long.trans (Nat.le_mul_of_pos_left _ firstKept.positive)) _
    · exact .inr (by omega)

theorem mul_roundsFrom (firstPositive : 0 < first) (secondPositive : 0 < second)
    (digits : HasDigits (first * second) (firstExponent + secondExponent)) :
    RoundsFrom (UnpackedFloat.mul .binary64
        (.finite .positive first firstExponent firstPositive)
        (.finite .positive second secondExponent secondPositive))
      (first * 2 ^ firstExponent * (second * 2 ^ secondExponent)) := by
  have same : (first * 2 ^ firstExponent * (second * 2 ^ secondExponent) : ℚ)
      = ((first * second : Nat) : ℚ) * 2 ^ (firstExponent + secondExponent) := by
    rw [zpow_add₀ (by norm_num)]
    push_cast
    ring
  exact same ▸ roundWithAccuracy_roundsFrom (isCutFrom_exact _) digits

theorem add_roundsFrom (firstPositive : 0 < first) (secondPositive : 0 < second) :
    RoundsFrom (UnpackedFloat.add .binary64
        (.finite .positive first firstExponent firstPositive)
        (.finite .positive second secondExponent secondPositive))
      (first * 2 ^ firstExponent + second * 2 ^ secondExponent) := by
  rcases add_finite firstPositive secondPositive firstExponent secondExponent
    with ⟨shift, more, firstFrom, secondFrom, sum⟩
  have same : (first * 2 ^ firstExponent + second * 2 ^ secondExponent : ℚ)
      = ((first * 2 ^ shift + second * 2 ^ more : Nat) : ℚ)
        * 2 ^ min firstExponent secondExponent := by
    have firstSame := scaled_mantissa first shift firstExponent
    have secondSame := scaled_mantissa second more secondExponent
    rw [show firstExponent - shift = min firstExponent secondExponent by omega] at firstSame
    rw [show secondExponent - more = min firstExponent secondExponent by omega] at secondSame
    rw [Nat.cast_add, add_mul, firstSame, secondSame]
  rw [sum, same]
  exact round_roundsFrom (Nat.add_pos_left (Nat.mul_pos firstPositive (Nat.two_pow_pos _)) _) _

private theorem isCutFrom_inexact (mantissa : Nat) {order : Ordering} {rest : ℚ}
    (positive : 0 < rest) (below : rest < 1) (ordered : order.Compares (2 * rest) 1) :
    IsCutFrom (.ofMantissaAndAccuracy mantissa (.inexact order)) (mantissa + rest) := by
  cases order with
  | lt =>
      have less : 2 * rest < 1 := ordered
      have whole : (halves (.ofMantissaAndAccuracy mantissa (.inexact .lt)) : ℚ)
          = 2 * mantissa := by simp [halves, ExtendedMantissa.ofMantissaAndAccuracy]
      constructor <;> rw [whole]
      · linarith
      · linarith
      · exact iff_of_false Bool.noConfusion fun same => by linarith
  | eq =>
      have same : 2 * rest = 1 := ordered
      have whole : (halves (.ofMantissaAndAccuracy mantissa (.inexact .eq)) : ℚ)
          = 2 * mantissa + 1 := by simp [halves, ExtendedMantissa.ofMantissaAndAccuracy]
      constructor <;> rw [whole]
      · linarith
      · linarith
      · exact iff_of_true rfl (by linarith)
  | gt =>
      have greater : 1 < 2 * rest := ordered
      have whole : (halves (.ofMantissaAndAccuracy mantissa (.inexact .gt)) : ℚ)
          = 2 * mantissa + 1 := by simp [halves, ExtendedMantissa.ofMantissaAndAccuracy]
      constructor <;> rw [whole]
      · linarith
      · linarith
      · exact iff_of_false Bool.noConfusion fun same => by linarith

private theorem isCutFrom_quotient (dividend : Nat) {divisor : Nat} (positive : 0 < divisor) :
    IsCutFrom (.ofMantissaAndAccuracy (dividend / divisor)
      (accuracyOfFraction (dividend % divisor) divisor)) (dividend / divisor) := by
  have unit : (0 : ℚ) < divisor := Nat.cast_pos.mpr positive
  have parts : (dividend : ℚ) / divisor
      = (dividend / divisor : Nat) + (dividend % divisor : Nat) / divisor := by
    rw [div_eq_iff unit.ne', add_mul, div_mul_cancel₀ _ unit.ne']
    exact_mod_cast (Nat.div_add_mod' dividend divisor).symm
  rw [parts, accuracyOfFraction]
  split
  next none =>
    rw [none, Nat.cast_zero, zero_div, add_zero]
    exact isCutFrom_exact _
  next some =>
    have more : (0 : ℚ) < (dividend % divisor : Nat) := Nat.cast_pos.mpr (Nat.pos_of_ne_zero some)
    have less : ((dividend % divisor : Nat) : ℚ) < divisor :=
      Nat.cast_lt.mpr (Nat.mod_lt dividend positive)
    refine isCutFrom_inexact _ (div_pos more unit) ((div_lt_one unit).mpr less) ?_
    -- The remainder lies to half of the divisor as the fraction lies to a half.
    have ordered := (compare_iff (2 * (dividend % divisor)) divisor).mp rfl
    rw [← mul_div_assoc]
    generalize compare (2 * (dividend % divisor)) divisor = order at ordered ⊢
    cases order <;> dsimp only [Ordering.Compares] at ordered ⊢
    case lt => exact (div_lt_one unit).mpr (by exact_mod_cast ordered)
    case eq => exact (div_eq_one_iff_eq unit.ne').mpr (by exact_mod_cast ordered)
    case gt => exact (one_lt_div unit).mpr (by exact_mod_cast ordered)

/-- The dividend is given so many further digits that the quotient has all that are wanted,
unless the exponent of the quotient is the lowest. -/
private theorem divCore_eq (first second : Nat) (firstExponent secondExponent : Int) :
    ∃ (shift : Nat) (target : Int), target + shift = firstExponent - secondExponent ∧
      (second.log2 + 53 ≤ first.log2 + shift ∨ target ≤ -1074) ∧
      divCore .binary64 first firstExponent second secondExponent
        = (first * 2 ^ shift / second, target,
          accuracyOfFraction (first * 2 ^ shift % second) second) := by
  have wanted (total : Int) :
      Format.binary64.targetExponent total = max (total - 53) (-1074) := rfl
  rw [divCore, Nat.shiftLeft_eq]
  simp only [wanted, totalExponent]
  exact ⟨_, _, by omega, by omega, rfl⟩

theorem div_roundsFrom (firstPositive : 0 < first) (secondPositive : 0 < second) :
    RoundsFrom (UnpackedFloat.div .binary64
        (.finite .positive first firstExponent firstPositive)
        (.finite .positive second secondExponent secondPositive))
      (first * 2 ^ firstExponent / (second * 2 ^ secondExponent)) := by
  rcases divCore_eq first second firstExponent secondExponent
    with ⟨shift, target, exponents, long, quotient⟩
  have digits : HasDigits (first * 2 ^ shift / second) target := by
    rcases long with long | lowest
    · refine hasDigits_of_le ((Nat.le_div_iff_mul_le secondPositive).mpr ?_) _
      calc 2 ^ 52 * second
        _ ≤ 2 ^ 52 * 2 ^ (second.log2 + 1) := Nat.mul_le_mul_left _ Nat.lt_log2_self.le
        _ = 2 ^ (second.log2 + 53) := by rw [← Nat.pow_add, Nat.add_comm 52, Nat.add_assoc]
        _ ≤ 2 ^ (first.log2 + shift) := Nat.pow_le_pow_right (by decide) long
        _ = 2 ^ first.log2 * 2 ^ shift := Nat.pow_add ..
        _ ≤ first * 2 ^ shift := Nat.mul_le_mul_right _ (Nat.log2_self_le firstPositive.ne')
    · exact .inr lowest
  have same : (first * 2 ^ firstExponent / (second * 2 ^ secondExponent) : ℚ)
      = (first * 2 ^ shift : Nat) / second * 2 ^ target := by
    rw [mul_div_mul_comm, ← zpow_sub₀ (by norm_num), ← exponents, zpow_add₀ (by norm_num),
      zpow_natCast]
    push_cast
    ring
  rw [UnpackedFloat.div, quotient, same]
  exact roundWithAccuracy_roundsFrom (isCutFrom_quotient _ secondPositive) digits

end

end TimedText.Number
