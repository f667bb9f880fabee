import TimedText.Proofs.Computed
import TimedText.Proofs.Number.Arithmetic
/-!
Font sizes. A size that is computed is a number without a sign in percent of the height, and a
percentage of it can be computed unless it has overflown: then it is infinite, or undefined.
-/

namespace TimedText.Style

open Number

/-! ## Numbers without a sign -/

private theorem value_of_unsigned {number : Float} (unsigned : IsUnsigned number) :
    value number = .undefined ∨ value number = .infinite false ∨
      ∃ mantissa exponent, value number = .finite ⟨false, mantissa, exponent⟩ := by
  have positive : (bits number / 2 ^ 63 == 1) = false := by
    rw [IsUnsigned] at unsigned
    rw [beq_eq_false_iff_ne]
    omega
  rw [value_eq, positive]
  split
  · split
    · exact .inr (.inl rfl)
    · exact .inl rfl
  · split
    · exact .inr (.inr ⟨_, _, rfl⟩)
    · exact .inr (.inr ⟨_, _, rfl⟩)

private theorem fixedText_of_unsigned (places : Nat) {number : Float}
    (unsigned : IsUnsigned number) :
    (IsFinite number ∧ ∃ numeral : Numeral, numeral.IsWritten ∧
        fixedText places number = String.ofList numeral.chars) ∨
      (¬IsFinite number ∧ fixedText places number ∈ ["inf", "NaN"]) := by
  rw [fixedText]
  rcases value_of_unsigned unsigned with undefined | infinite | ⟨mantissa, exponent, finite⟩
  · rw [undefined]
    exact .inr ⟨not_isFinite (.inr undefined), by simp⟩
  · rw [infinite]
    exact .inr ⟨not_isFinite (.inl infinite), by simp⟩
  · rw [finite]
    dsimp only
    generalize roundToEven _ _ = units
    refine .inl ⟨⟨_, finite⟩, unitsNumeral places units, unitsNumeral_isWritten places units, ?_⟩
    exact String.toList_injective (by simp [Numeral.chars, unitsNumeral])

private theorem hundred_isUnsigned : IsUnsigned 100 := by decide +kernel

/-! ## Sizes -/

def IsSize (text : String) : Prop :=
  ∃ size : Float, IsUnsigned size ∧ text = fixedText 6 size ++ "rh"

def HasOverflown (text : String) : Prop := text = "infrh" ∨ text = "NaNrh"

instance (text : String) : Decidable (HasOverflown text) :=
  inferInstanceAs (Decidable (_ ∨ _))

section

variable {text basis value : String}

private theorem numeralAndUnit?_of_isWritten {numeral : Numeral} (written : numeral.IsWritten) :
    numeralAndUnit? (String.ofList numeral.chars ++ "rh") = some (numeral, "rh") := by
  have taken : Numeral.take? (numeral.chars ++ ['r', 'h']) = some (numeral, ['r', 'h']) :=
    Numeral.take?_chars_append written (by rintro _ ⟨⟩; decide)
  have toList : (String.ofList numeral.chars ++ "rh").toList = numeral.chars ++ ['r', 'h'] := by
    rw [String.toList_append, String.toList_ofList]
    rfl
  rw [numeralAndUnit?, toList, taken]
  rfl

private theorem HasOverflown.numeralAndUnit?_eq_none (overflown : HasOverflown text) :
    numeralAndUnit? text = none := by
  rcases overflown with rfl | rfl <;> decide

theorem IsHeight.present_eq (isHeight : IsHeight text) : present (some text) = some text := by
  rcases isHeight with ⟨size, rfl⟩
  refine Option.filter_some_pos ?_
  simp

theorem IsSize.isHeight (isSize : IsSize text) : IsHeight text := by
  rcases isSize with ⟨size, _, same⟩
  exact ⟨size, same⟩

private theorem hasOverflown_iff {size : Float} (unsigned : IsUnsigned size) :
    HasOverflown (fixedText 6 size ++ "rh") ↔ ¬IsFinite size := by
  rcases fixedText_of_unsigned 6 unsigned with
    ⟨finite, numeral, written, same⟩ | ⟨notFinite, word⟩
  · refine iff_of_false (fun overflown => ?_) (not_not.mpr finite)
    have none := overflown.numeralAndUnit?_eq_none
    rw [same, numeralAndUnit?_of_isWritten written] at none
    cases none
  · refine iff_of_true ?_ notFinite
    rcases List.mem_pair.mp word with same | same <;> rw [same] <;> decide

private theorem IsSize.numeralAndUnit?_of_not_hasOverflown (isSize : IsSize text)
    (within : ¬HasOverflown text) : ∃ numeral, numeralAndUnit? text = some (numeral, "rh") := by
  rcases isSize with ⟨size, unsigned, rfl⟩
  rcases fixedText_of_unsigned 6 unsigned with ⟨_, numeral, written, same⟩ | ⟨notFinite, _⟩
  · exact ⟨numeral, same ▸ numeralAndUnit?_of_isWritten written⟩
  · exact absurd ((hasOverflown_iff unsigned).mpr notFinite) within

/-! ## Percentages of sizes -/

theorem percentOf_of_hasOverflown (percentage : isPercentage text = true)
    (overflown : HasOverflown basis) :
    percentOf text basis = .error (.style s!"Basis value {basis} is not a valid number") := by
  rcases Option.isSome_iff_exists.mp percentage with ⟨numeral, read⟩
  rw [percentOf, read, overflown.numeralAndUnit?_eq_none]

theorem percentOf_of_isSize (percentage : isPercentage text = true) (isSize : IsSize basis)
    (within : ¬HasOverflown basis) : ∃ value, percentOf text basis = .ok value ∧ IsSize value := by
  rcases Option.isSome_iff_exists.mp percentage with ⟨numeral, read⟩
  rcases isSize.numeralAndUnit?_of_not_hasOverflown within with ⟨size, cut⟩
  have share : IsUnsigned (numeral.toFloat / 100) :=
    (ofScientific_isUnsigned _ _ _).div hundred_isUnsigned
  have whole : IsUnsigned size.toFloat := ofScientific_isUnsigned _ _ _
  rw [percentOf, read, cut]
  exact ⟨_, rfl, _, share.mul whole, rfl⟩

theorem percentOf_isSize (percentage : isPercentage text = true) (isSize : IsSize basis)
    (computes : percentOf text basis = .ok value) : IsSize value := by
  by_cases overflown : HasOverflown basis
  · rw [percentOf_of_hasOverflown percentage overflown] at computes
    cases computes
  · rcases percentOf_of_isSize percentage isSize overflown with ⟨same, computed, own⟩
    cases computes.symm.trans computed
    exact own

/-! ## Cells -/

private theorem rowsOf_bounds {cellResolution : Option String} {rows : Nat}
    (counted : rowsOf cellResolution = .ok rows) : rows ≠ 0 ∧ rows < 2 ^ 32 := by
  cases cellResolution with
  | none =>
      cases counted
      decide
  | some text =>
      rw [rowsOf.eq_def] at counted
      dsimp only at counted
      split at counted
      next read =>
        cases counted
        rw [rows?] at read
        split at read
        next =>
          rcases Option.filter_eq_some_iff.mp read with ⟨natural, positive⟩
          exact ⟨(of_decide_eq_true positive).ne', readNatural?_lt natural⟩
        next => cases read
      next => cases counted

private theorem hundred_spans : Spans 100 0 7 True :=
  ⟨100, ⟨100 * 2 ^ 46, -46, rfl, by norm_num⟩, by norm_num, fun _ => by norm_num,
    fun fails => absurd trivial fails⟩

theorem cellHeight_isSize {cellResolution : Option String} {height : String}
    (computes : cellHeight cellResolution = .ok height) :
    IsSize height ∧ ¬HasOverflown height := by
  rw [cellHeight] at computes
  cases counted : rowsOf cellResolution with
  | error fault =>
      rw [counted] at computes
      cases computes
  | ok rows =>
      rw [counted] at computes
      cases computes
      rcases rowsOf_bounds counted with ⟨some, few⟩
      have unsigned : IsUnsigned (100 / ofDecimal rows 0) :=
        hundred_isUnsigned.div (ofScientific_isUnsigned _ _ _)
      have divided := hundred_spans.div (ofDecimal_spans (few.le.trans (by decide))) some
        (by decide)
      rcases divided.atMost with ⟨_, measured, _⟩
      refine ⟨⟨_, unsigned, rfl⟩, ?_⟩
      rw [hasOverflown_iff unsigned, not_not]
      exact measured.isFinite

end

/-! ## Font sizes -/

section

variable {setting : Setting} {specified parent : Option String} {height value : String}

theorem computeFontSize_of_isPercentage {text basis : String}
    (percentage : isPercentage text = true) :
    computeFontSize setting (some text) (some basis) = percentOf text basis :=
  if_pos percentage

theorem computeFontSize_eq (usable : cellHeight setting.cellResolution = .ok height)
    (percentage : ∀ text ∈ specified, isPercentage text = true) :
    computeFontSize setting specified parent =
      match specified with
      | none => .ok (parent.getD height)
      | some text => percentOf text (parent.getD height) := by
  have inherited : computeFontSize setting specified parent =
      computeFontSize setting specified (some (parent.getD height)) := by
    cases parent with
    | none => exact computeFontSize_of_cellHeight usable
    | some basis => rfl
  rw [inherited]
  cases specified with
  | none => rfl
  | some text => exact computeFontSize_of_isPercentage (percentage text rfl)

theorem computeFontSize_isSize (inherited : ∀ text ∈ parent, IsSize text)
    (percentage : ∀ text ∈ specified, isPercentage text = true)
    (computes : computeFontSize setting specified parent = .ok value) : IsSize value := by
  -- Only where nothing is inherited does it matter whether cells have a height.
  have basis : ∃ basis, IsSize basis ∧
      computeFontSize setting specified parent
        = computeFontSize setting specified (some basis) := by
    cases parent with
    | some basis => exact ⟨basis, inherited basis rfl, rfl⟩
    | none =>
        cases cell : cellHeight setting.cellResolution with
        | error fault =>
            rw [computeFontSize, cell] at computes
            cases computes
        | ok basis =>
            exact ⟨basis, (cellHeight_isSize cell).1, computeFontSize_of_cellHeight cell⟩
  rcases basis with ⟨basis, isSize, same⟩
  rw [same] at computes
  cases specified with
  | none =>
      cases computes
      exact isSize
  | some text =>
      rw [computeFontSize_of_isPercentage (percentage text rfl)] at computes
      exact percentOf_isSize (percentage text rfl) isSize computes

end

end TimedText.Style
