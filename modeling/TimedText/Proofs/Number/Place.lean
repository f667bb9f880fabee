import Mathlib
import TimedText.Proofs.Quantity
/-!
The line of floating-point numbers. A number compares by its place, which its
bits tell: those of a number without a sign count up from zero to infinity, and
whatever lies past infinity is undefined. So floating-point numbers obey the laws
of comparing and of filing.
-/

namespace TimedText.Number

open Quantity Float.Model Float.Model.UnpackedFloat

/-- The bits of infinity, the last place on the line. -/
def infinityPlace : Nat := 2047 * 2 ^ 52

theorem infinityPlace_lt : infinityPlace < 2 ^ 63 := by decide

def bits (number : Float) : Nat := number.toBits.toNat

theorem bits_lt (number : Float) : bits number < 2 ^ 64 :=
  number.toBits.toNat_lt

theorem bits_injective {left right : Float} (same : bits left = bits right) :
    left = right :=
  Float.toBits_inj.mp (UInt64.toNat_inj.mp same)

/-! ## Places -/

theorem value_undefined_iff (number : Float) :
    value number = .undefined ↔ infinityPlace < bits number % 2 ^ 63 := by
  have bound := bits_lt number
  rw [value]
  change (if bits number / 2 ^ 52 % 2 ^ 11 = 2047 then
      if bits number % 2 ^ 52 = 0 then .infinite _ else Value.undefined
    else if bits number / 2 ^ 52 % 2 ^ 11 = 0 then .finite _
    else .finite _) = Value.undefined ↔ _
  rw [infinityPlace]
  split
  · split
    · simp only [reduceCtorEq, false_iff]
      omega
    · simp only [true_iff]
      omega
  · split
    · simp only [reduceCtorEq, false_iff]
      omega
    · simp only [reduceCtorEq, false_iff]
      omega

theorem place?_eq (number : Float) :
    place? number =
      if infinityPlace < bits number % 2 ^ 63 then none
      else if bits number < 2 ^ 63 then some (bits number : Int)
      else some (-((bits number - 2 ^ 63 : Nat) : Int)) := by
  have undefined := value_undefined_iff number
  rw [place?]
  split
  next same => rw [if_pos (undefined.mp same)]
  next different => rw [if_neg fun past => different (undefined.mpr past)]; rfl

private theorem filingPlace_eq (number : Float) :
    filingPlace number =
      if infinityPlace < bits number % 2 ^ 63 then -(2 ^ 64)
      else if bits number < 2 ^ 63 then (bits number : Int)
      else -((bits number - 2 ^ 63 : Nat) : Int) - 1 := by
  have undefined := value_undefined_iff number
  rw [filingPlace]
  split
  next same => rw [if_pos (undefined.mp same)]
  next different => rw [if_neg fun past => different (undefined.mpr past)]; rfl

/-! ## Undefined numbers -/

theorem unpackExponent_toNat (packed : BitVec Format.binary64.numBits) :
    (unpackExponent packed).toNat = packed.toNat / 2 ^ 52 % 2 ^ 11 := by
  simp [unpackExponent, BitVec.extractLsb, Nat.shiftRight_eq_div_pow]

theorem unpackMantissa_toNat (packed : BitVec Format.binary64.numBits) :
    (unpackMantissa packed).toNat = packed.toNat % 2 ^ 52 := by
  simp [unpackMantissa, BitVec.extractLsb]

theorem bits_of_undefined {number : Float}
    (past : infinityPlace < bits number % 2 ^ 63) :
    bits number = (packedNaN Format.binary64).toNat := by
  have bound := bits_lt number
  rw [infinityPlace] at past
  apply congrArg BitVec.toNat
  apply number.toModel.valid.eq_packedNaN
  · apply BitVec.eq_of_toNat_eq
    rw [unpackExponent_toNat]
    change bits number / 2 ^ 52 % 2 ^ 11 = 2047
    omega
  · intro none
    have none := congrArg BitVec.toNat none
    rw [unpackMantissa_toNat] at none
    change bits number % 2 ^ 52 = 0 at none
    omega

private theorem filingPlace_injective {left right : Float}
    (same : filingPlace left = filingPlace right) : left = right := by
  apply bits_injective
  have leftBound := bits_lt left
  have rightBound := bits_lt right
  rw [filingPlace_eq, filingPlace_eq] at same
  by_cases leftPast : infinityPlace < bits left % 2 ^ 63
  · by_cases rightPast : infinityPlace < bits right % 2 ^ 63
    · rw [bits_of_undefined leftPast, bits_of_undefined rightPast]
    · rw [if_pos leftPast, if_neg rightPast] at same
      split at same <;> omega
  · rw [if_neg leftPast] at same
    split at same <;> split at same <;> omega

/-! ## Comparing -/

theorem isDefined_iff {number : Float} :
    IsDefined number ↔ ∃ place, place? number = some place := by
  change lessOrEqual number number = true ↔ _
  rw [lessOrEqual]
  cases place? number <;> simp

theorem lessOrEqual_iff {left right : Float} :
    Quantity.lessOrEqual left right ↔
      ∃ first second, place? left = some first ∧ place? right = some second
        ∧ first ≤ second := by
  change lessOrEqual left right = true ↔ _
  rw [lessOrEqual]
  cases place? left <;> cases place? right <;> simp

theorem less_iff {left right : Float} :
    Quantity.less left right ↔
      ∃ first second, place? left = some first ∧ place? right = some second
        ∧ first < second := by
  change less left right = true ↔ _
  rw [less]
  cases place? left <;> cases place? right <;> simp

private theorem place?_negativeInfinity :
    place? negativeInfinity = some (-(infinityPlace : Int)) := by
  decide +kernel

theorem bits_of_place {number : Float} {place : Int}
    (placed : place? number = some place) :
    (bits number ≤ infinityPlace ∧ place = bits number)
      ∨ (2 ^ 63 ≤ bits number ∧ bits number ≤ 2 ^ 63 + infinityPlace
        ∧ place = 2 ^ 63 - bits number) := by
  have bound := bits_lt number
  rw [place?_eq] at placed
  split at placed
  · cases placed
  next within =>
    split at placed
    next unsigned =>
      have same := Option.some.inj placed
      left
      omega
    next signed =>
      have same := Option.some.inj placed
      right
      omega

theorem place_bounds {number : Float} {place : Int}
    (placed : place? number = some place) :
    -(infinityPlace : Int) ≤ place ∧ place ≤ infinityPlace := by
  rcases bits_of_place placed with ⟨within, same⟩ | ⟨signed, within, same⟩ <;> omega

private theorem filingPlace_of_place {number : Float} {place : Int}
    (placed : place? number = some place) :
    filingPlace number = if bits number < 2 ^ 63 then place else place - 1 := by
  have infinity := infinityPlace_lt
  have within : ¬infinityPlace < bits number % 2 ^ 63 := by
    rcases bits_of_place placed with ⟨within, _⟩ | ⟨signed, within, _⟩ <;> omega
  rw [filingPlace_eq, if_neg within]
  rcases bits_of_place placed with ⟨within, same⟩ | ⟨signed, within, same⟩
  · rw [if_pos (by omega), if_pos (by omega), same]
  · rw [if_neg (by omega), if_neg (by omega)]
    omega

private theorem filingPlace_lt {left right : Float} {first second : Int}
    (leftPlaced : place? left = some first) (rightPlaced : place? right = some second)
    (before : first < second) : filingPlace left < filingPlace right := by
  have infinity := infinityPlace_lt
  have leftBits := bits_of_place leftPlaced
  have rightBits := bits_of_place rightPlaced
  rw [filingPlace_of_place leftPlaced, filingPlace_of_place rightPlaced]
  split <;> split <;> omega

/-! ## The laws -/

instance : Ordered Float where
  trans := by
    intro first second third before after
    rcases lessOrEqual_iff.mp before with ⟨low, middle, lowPlaced, middlePlaced, le⟩
    rcases lessOrEqual_iff.mp after with ⟨_, high, samePlaced, highPlaced, more⟩
    cases middlePlaced.symm.trans samePlaced
    exact lessOrEqual_iff.mpr ⟨low, high, lowPlaced, highPlaced, le.trans more⟩
  total := by
    intro left right leftDefined rightDefined
    rcases isDefined_iff.mp leftDefined with ⟨first, leftPlaced⟩
    rcases isDefined_iff.mp rightDefined with ⟨second, rightPlaced⟩
    rcases le_total first second with le | le
    · exact .inl (lessOrEqual_iff.mpr ⟨first, second, leftPlaced, rightPlaced, le⟩)
    · exact .inr (lessOrEqual_iff.mpr ⟨second, first, rightPlaced, leftPlaced, le⟩)
  defined := by
    intro left right le
    rcases lessOrEqual_iff.mp le with ⟨first, second, leftPlaced, rightPlaced, _⟩
    exact ⟨isDefined_iff.mpr ⟨first, leftPlaced⟩,
      isDefined_iff.mpr ⟨second, rightPlaced⟩⟩
  less_iff := by
    intro left right
    rw [less_iff, lessOrEqual_iff, isDefined_iff, isDefined_iff]
    cases place? left <;> cases place? right <;> simp
  smaller_mem := by
    intro left right
    change smaller left right = left ∨ smaller left right = right
    rw [smaller]
    split <;> grind
  smaller_le_left := by
    intro left right defined
    rcases isDefined_iff.mp defined with ⟨place, placed⟩
    change Quantity.lessOrEqual (smaller left right) left
    rw [lessOrEqual_iff, smaller]
    grind
  smaller_le_right := by
    intro left right defined
    rcases isDefined_iff.mp defined with ⟨place, placed⟩
    change Quantity.lessOrEqual (smaller left right) right
    rw [lessOrEqual_iff, smaller]
    grind
  greater_mem := by
    intro left right
    change greater left right = left ∨ greater left right = right
    rw [greater]
    split <;> grind
  left_le_greater := by
    intro left right defined
    rcases isDefined_iff.mp defined with ⟨place, placed⟩
    change Quantity.lessOrEqual left (greater left right)
    rw [lessOrEqual_iff, greater]
    grind
  right_le_greater := by
    intro left right defined
    rcases isDefined_iff.mp defined with ⟨place, placed⟩
    change Quantity.lessOrEqual right (greater left right)
    rw [lessOrEqual_iff, greater]
    grind
  bounding_of_defined := by
    intro number defined
    rcases isDefined_iff.mp defined with ⟨place, placed⟩
    change greater negativeInfinity number = number
    rw [greater, place?_negativeInfinity, placed]
    dsimp only
    split
    · rfl
    next notAbove =>
      -- Nothing but the lowest number is in the lowest place.
      apply bits_injective
      have infinity : 0 < infinityPlace := by decide
      have lowest := (place_bounds placed).1
      have numberBits := bits_of_place placed
      have lowestBits := bits_of_place place?_negativeInfinity
      omega
  bounding_le := by
    intro number other undefined defined
    rcases isDefined_iff.mp defined with ⟨place, placed⟩
    have none : place? number = none := by
      rw [Option.eq_none_iff_forall_ne_some]
      exact fun place placed => undefined (isDefined_iff.mpr ⟨place, placed⟩)
    change Quantity.lessOrEqual (greater negativeInfinity number) other
    rw [greater, place?_negativeInfinity, none]
    exact lessOrEqual_iff.mpr ⟨_, place, place?_negativeInfinity, placed,
      (place_bounds placed).1⟩
  filedBefore_irrefl := by
    intro number before
    exact lt_irrefl (filingPlace number) (of_decide_eq_true before)
  filedBefore_trans := by
    intro first second third before after
    exact decide_eq_true
      ((of_decide_eq_true before).trans (of_decide_eq_true after))
  eq_of_not_filedBefore := by
    intro left right notBefore notAfter
    apply filingPlace_injective
    apply le_antisymm
    · exact not_lt.mp fun after => notAfter (decide_eq_true after)
    · exact not_lt.mp fun before => notBefore (decide_eq_true before)
  filedBefore_of_less := by
    intro left right before
    rcases less_iff.mp before with ⟨first, second, leftPlaced, rightPlaced, lt⟩
    exact decide_eq_true (filingPlace_lt leftPlaced rightPlaced lt)

end TimedText.Number
