import TimedText.Proofs.Number.Unsigned
/-!
The sizes of floating-point numbers. What the numbers without a sign stand for grows from
place to place, and the finite ones are those before infinity.
-/

namespace TimedText.Number

/-- What the number at a place stands for. At the place of infinity that is the power of two
after the greatest number. -/
def size (place : Nat) : ℚ :=
  if place < 2 ^ 52 then place * 2 ^ (-1074 : Int)
  else (place % 2 ^ 52 + 2 ^ 52 : Nat) * 2 ^ ((place / 2 ^ 52 : Nat) - 1075 : Int)

structure IsPlaced (mantissa : Nat) (exponent : Int) : Prop where
  least : -1074 ≤ exponent
  below : mantissa < 2 ^ 53
  normal : 2 ^ 52 ≤ mantissa ∨ exponent = -1074

section

variable {mantissa : Nat} {exponent : Int}

theorem IsKept.isPlaced (kept : IsKept mantissa exponent) : IsPlaced mantissa exponent :=
  ⟨kept.least, kept.below, kept.normal⟩

theorem size_placeOf (placed : IsPlaced mantissa exponent) :
    size (placeOf mantissa exponent).toNat = mantissa * 2 ^ exponent := by
  rcases placed with ⟨least, below, normal⟩
  rw [size, placeOf]
  by_cases short : mantissa < 2 ^ 52
  · have smallest : exponent = -1074 := by omega
    have same : ((exponent + 1074) * 2 ^ 52 + (mantissa : Int)).toNat = mantissa := by omega
    rw [same, if_pos short, smallest]
  · have digits : ((exponent + 1074) * 2 ^ 52 + (mantissa : Int)).toNat % 2 ^ 52 + 2 ^ 52
        = mantissa := by omega
    have steps : (((exponent + 1074) * 2 ^ 52 + (mantissa : Int)).toNat / 2 ^ 52 : Nat)
        - (1075 : Int) = exponent := by omega
    rw [if_neg (by omega), digits, steps]

private theorem isPlaced_of_place (place : Nat) :
    ∃ mantissa exponent, IsPlaced mantissa exponent ∧
      (place : Int) = placeOf mantissa exponent := by
  by_cases short : place < 2 ^ 52
  · exact ⟨place, -1074, ⟨le_rfl, by omega, .inr rfl⟩, by rw [placeOf]; omega⟩
  · refine ⟨place % 2 ^ 52 + 2 ^ 52, (place / 2 ^ 52 : Nat) - 1075, ⟨?_, ?_, .inl ?_⟩, ?_⟩
    · omega
    · omega
    · omega
    · rw [placeOf]
      omega

theorem size_placeOf_succ (placed : IsPlaced mantissa exponent) :
    size ((placeOf mantissa exponent).toNat + 1) = (mantissa + 1 : Nat) * 2 ^ exponent := by
  rcases placed with ⟨least, below, normal⟩
  by_cases last : mantissa + 1 = 2 ^ 53
  · have next : (placeOf mantissa exponent).toNat + 1
        = (placeOf (2 ^ 52) (exponent + 1)).toNat := by
      rw [placeOf, placeOf]
      omega
    rw [next, size_placeOf ⟨by omega, by decide, .inl le_rfl⟩, last,
      zpow_add_one₀ (by norm_num)]
    push_cast
    ring
  · have next : (placeOf mantissa exponent).toNat + 1
        = (placeOf (mantissa + 1) exponent).toNat := by
      rw [placeOf, placeOf]
      omega
    rw [next, size_placeOf ⟨least, by omega, by omega⟩]

end

theorem size_strictMono : StrictMono size := by
  refine strictMono_nat_of_lt_succ fun place => ?_
  rcases isPlaced_of_place place with ⟨mantissa, exponent, placed, same⟩
  have same : place = (placeOf mantissa exponent).toNat := by omega
  rw [same, size_placeOf placed, size_placeOf_succ placed]
  have positive : (0 : ℚ) < 2 ^ exponent := by positivity
  push_cast
  linarith

theorem size_zero : size 0 = 0 := by simp [size]

theorem size_nonneg (place : Nat) : 0 ≤ size place :=
  size_zero ▸ size_strictMono.monotone (Nat.zero_le place)

def powerPlace (power : Int) : Nat := ((power + 1023) * 2 ^ 52).toNat

theorem size_powerPlace {power : Int} (least : -1022 ≤ power) :
    size (powerPlace power) = 2 ^ power := by
  have same : powerPlace power = (placeOf (2 ^ 52) (power - 52)).toNat := by
    rw [powerPlace, placeOf]
    omega
  rw [same, size_placeOf ⟨by omega, by decide, .inl le_rfl⟩, Nat.cast_pow, Nat.cast_ofNat,
    ← zpow_natCast, ← zpow_add₀ (by norm_num)]
  congr 1
  omega

/-! ## What a number stands for -/

/-- A number without a sign stands for a rational number. -/
def Measures (number : Float) (amount : ℚ) : Prop :=
  ∃ mantissa exponent, value number = .finite ⟨false, mantissa, exponent⟩ ∧
    amount = mantissa * 2 ^ exponent

def IsFinite (number : Float) : Prop := ∃ exact, value number = .finite exact

section

variable {number : Float}

theorem value_eq (number : Float) :
    value number =
      if bits number / 2 ^ 52 % 2 ^ 11 = 2047 then
        if bits number % 2 ^ 52 = 0 then .infinite (bits number / 2 ^ 63 == 1) else .undefined
      else if bits number / 2 ^ 52 % 2 ^ 11 = 0 then
        .finite ⟨bits number / 2 ^ 63 == 1, bits number % 2 ^ 52, -1074⟩
      else
        .finite ⟨bits number / 2 ^ 63 == 1, bits number % 2 ^ 52 + 2 ^ 52,
          (bits number / 2 ^ 52 % 2 ^ 11 : Nat) - 1075⟩ :=
  rfl

theorem measures_iff {amount : ℚ} :
    Measures number amount ↔ bits number < infinityPlace ∧ amount = size (bits number) := by
  have bound := bits_lt number
  rw [Measures, value_eq, infinityPlace, size]
  split
  next last =>
    refine iff_of_false ?_ (by omega)
    rintro ⟨_, _, same, _⟩
    split at same <;> cases same
  next notLast =>
    split
    next first =>
      simp only [Value.finite.injEq, Exact.mk.injEq, beq_eq_false_iff_ne]
      constructor
      · rintro ⟨_, _, ⟨positive, rfl, rfl⟩, rfl⟩
        have same : bits number % 2 ^ 52 = bits number := by omega
        exact ⟨by omega, by rw [if_pos (by omega), same]⟩
      · rintro ⟨within, rfl⟩
        have same : bits number % 2 ^ 52 = bits number := by omega
        exact ⟨_, _, ⟨by omega, rfl, rfl⟩, by rw [if_pos (by omega), same]⟩
    next notFirst =>
      simp only [Value.finite.injEq, Exact.mk.injEq, beq_eq_false_iff_ne]
      constructor
      · rintro ⟨_, _, ⟨positive, rfl, rfl⟩, rfl⟩
        have same : bits number / 2 ^ 52 % 2 ^ 11 = bits number / 2 ^ 52 := by omega
        exact ⟨by omega, by rw [if_neg (by omega), same]⟩
      · rintro ⟨within, rfl⟩
        have same : bits number / 2 ^ 52 % 2 ^ 11 = bits number / 2 ^ 52 := by omega
        exact ⟨_, _, ⟨by omega, rfl, rfl⟩, by rw [if_neg (by omega), same]⟩

theorem value_infinite_iff :
    value number = .infinite false ↔ bits number = infinityPlace := by
  have bound := bits_lt number
  rw [value_eq, infinityPlace]
  split
  · split <;> simp only [Value.infinite.injEq, beq_eq_false_iff_ne, reduceCtorEq, false_iff]
      <;> omega
  · split <;> simp only [reduceCtorEq, false_iff] <;> omega

theorem Measures.isFinite {amount : ℚ} (own : Measures number amount) : IsFinite number := by
  rcases own with ⟨_, _, finite, _⟩
  exact ⟨_, finite⟩

theorem IsFinite.measures (finite : IsFinite number) (unsigned : IsUnsigned number) :
    Measures number (size (bits number)) := by
  rcases finite with ⟨exact, same⟩
  have defined : ¬infinityPlace < bits number % 2 ^ 63 := fun past =>
    Value.noConfusion (same.symm.trans ((value_undefined_iff number).mpr past))
  have notInfinite : bits number ≠ infinityPlace := fun last =>
    Value.noConfusion (same.symm.trans (value_infinite_iff.mpr last))
  rw [IsUnsigned] at unsigned
  exact measures_iff.mpr ⟨by omega, rfl⟩

theorem not_isFinite
    (same : value number = .infinite false ∨ value number = .undefined) : ¬IsFinite number := by
  rintro ⟨exact, finite⟩
  rcases same with infinite | undefined
  · cases finite.symm.trans infinite
  · cases finite.symm.trans undefined

end

end TimedText.Number
