import TimedText.Proofs.Number.Arithmetic
import TimedText.Proofs.Time.Multiplier
/-!
Rates of frames and ticks. The rates of accepted parameters are finite, and zero only where
nothing is counted in a second. What a count comes to at a rate is finite unless the rate is
zero or the quotient is past the greatest number.
-/

namespace TimedText.Time

open Number Text

/-! ## Counts at a rate -/

structure ConvertsAt (count rate : ℚ) (instant : Float) : Prop where
  finite_iff : IsFinite instant ↔ 0 < rate ∧ count / rate < overflow
  undefined_iff : value instant = .undefined ↔ rate = 0 ∧ count = 0

section

variable {count rate : ℚ} {counted rated : Float}

theorem convertsAt_div (one : Measures counted count) (other : Measures rated rate) :
    ConvertsAt count rate (counted / rated) := by
  rcases other.nonneg.eq_or_lt with zero | positive
  · have same := one.div_zero (zero ▸ other)
    split at same
    next none =>
      refine ⟨iff_of_false (not_isFinite (.inr same)) fun both => both.1.ne zero, ?_⟩
      exact iff_of_true same ⟨zero.symm, none⟩
    next some =>
      refine ⟨iff_of_false (not_isFinite (.inl same)) fun both => both.1.ne zero, ?_⟩
      rw [same]
      exact iff_of_false Value.noConfusion fun both => some both.2
  · rcases (one.div other positive).cases with ⟨below, _, measured⟩ | ⟨past, infinite⟩
    · rcases measured.isFinite with ⟨_, finite⟩
      refine ⟨iff_of_true measured.isFinite ⟨positive, below⟩, ?_⟩
      rw [finite]
      exact iff_of_false Value.noConfusion fun both => positive.ne' both.1
    · refine ⟨iff_of_false (not_isFinite (.inl infinite)) fun both => both.2.not_ge past, ?_⟩
      rw [infinite]
      exact iff_of_false Value.noConfusion fun both => positive.ne' both.1

end

/-! ## Frame times -/

private theorem hour_measures : Measures 3600 3600 :=
  ⟨3600 * 2 ^ 41, -41, rfl, by norm_num⟩

private theorem minute_measures : Measures 60 60 :=
  ⟨60 * 2 ^ 47, -47, rfl, by norm_num⟩

theorem frameSeconds_isFinite_iff {hours minutes seconds frames : Nat} {rate : Float}
    {positive : Prop} (small : hours < 100 ∧ minutes < 100 ∧ seconds < 100 ∧ frames < 100)
    (spans : Spans rate (-64) 128 positive) :
    IsFinite (ofDecimal hours 0 * 3600 + ofDecimal minutes 0 * 60 + ofDecimal seconds 0
      + ofDecimal frames 0 / rate) ↔ positive := by
  -- The clock is bounded by its fields alone; the rate decides about the last summand.
  have field {whole : Nat} (below : whole < 100) : Spans (ofDecimal whole 0) 0 64 (whole ≠ 0) :=
    ofDecimal_spans (by omega)
  have hour : AtMost 3600 12 := ⟨3600, hour_measures, by norm_num⟩
  have minute : AtMost 60 12 := ⟨60, minute_measures, by norm_num⟩
  have first := (field small.1).atMost.mul hour (by decide)
  have second := (field small.2.1).atMost.mul minute (by decide)
  have third := (field small.2.2.1).atMost
  have clock := (first.add second (by decide)).add (third.mono (by decide)) (by decide)
  by_cases holds : positive
  · have last := ((field small.2.2.2).div spans holds (by decide)).atMost
    rcases (clock.mono (by decide)).add last (by decide) with ⟨_, measured, _⟩
    exact iff_of_true measured.isFinite holds
  · refine iff_of_false (not_isFinite ?_) holds
    rcases clock with ⟨_, clockMeasured, _⟩
    rcases field small.2.2.2 with ⟨count, counted, _⟩
    rcases spans with ⟨amount, measured, _, _, none⟩
    have quotient := counted.div_zero (none holds ▸ measured)
    split at quotient
    · exact .inr (clockMeasured.add_undefined quotient)
    · exact .inl (clockMeasured.add_infinite quotient)

namespace Parameters

/-! ## The rates of accepted parameters -/

/-- Whether the first term of a multiplier is not zero, where there is a multiplier. -/
def HasNumerator (multiplier : Option String) : Prop :=
  ∀ text ∈ multiplier, ∀ terms, multiplierTerms? text = some terms → terms.1 ≠ 0

section

variable {frameRate multiplier tickRate : Option String} {parameters : Parameters}

private theorem readFrameRate_lt {text : String} {rate : Nat}
    (read : readFrameRate text = .ok rate) :
    rate < 2 ^ 32 := by
  rw [readFrameRate] at read
  split at read
  next own => exact Except.ok.inj read ▸ readNatural?_lt own
  next => cases read

private theorem readTickRate_bounds {text : String} {rate : Nat}
    (read : readTickRate text = .ok rate) :
    rate ≠ 0 ∧ rate < 2 ^ 63 := by
  rw [readTickRate] at read
  split at read
  next number own =>
    cases read
    have within := (Option.filter_eq_some_iff.mp own).2
    rw [Bool.and_eq_true, decide_eq_true_eq, decide_eq_true_eq, Int.ofNat_eq_natCast] at within
    omega
  next => cases read

private theorem readMultiplier_spans {text : String} {factor : Float}
    (read : readMultiplier text = .ok factor) :
    Spans factor (-64) 64 (HasNumerator (some text)) := by
  rcases readMultiplier_eq_ok_iff.mp read with ⟨terms, found, ⟨first, second, divides⟩, rfl⟩
  have numerator : terms.1 ≠ 0 ↔ HasNumerator (some text) := by
    refine ⟨fun some _ same _ own => ?_, fun named => named text rfl terms found⟩
    cases same
    cases found.symm.trans own
    exact some
  exact ((ofDecimal_spans first.le).div (ofDecimal_spans second.le) divides (by decide)).congr
    numerator

private theorem one_spans : Spans 1 (-64) 64 True :=
  ⟨1, one_measures, by norm_num, fun _ => by norm_num, fun fails => absurd trivial fails⟩

theorem effectiveFrameRate_spans
    (accepted : ofValues frameRate multiplier tickRate = .ok parameters) :
    Spans parameters.effectiveFrameRate (-64) 128
      (parameters.frameRate ≠ 0 ∧ HasNumerator multiplier) := by
  rcases ofValues_eq_ok_iff.mp accepted with ⟨rate, factor, _, rates, factors, _, rfl⟩
  have small : rate.getD 25 ≤ 2 ^ 64 := by
    rcases mapM_eq_ok_iff.mp rates with ⟨_, rfl⟩ | ⟨_, own, _, read, rfl⟩
    · decide
    · exact (readFrameRate_lt read).le.trans (by decide)
  have multiplied : Spans (factor.getD 1) (-64) 64 (HasNumerator multiplier) := by
    rcases mapM_eq_ok_iff.mp factors with ⟨rfl, rfl⟩ | ⟨_, own, rfl, read, rfl⟩
    · have named : HasNumerator none := nofun
      exact one_spans.congr (iff_of_true trivial named)
    · exact readMultiplier_spans read
  exact (ofDecimal_spans small).mul multiplied (by decide)

theorem tickRate_spans
    (accepted : ofValues frameRate multiplier tickRate = .ok parameters) :
    Spans parameters.tickRate (-64) 128
      (tickRate.isSome = true ∨ frameRate = none ∨
        (parameters.frameRate ≠ 0 ∧ HasNumerator multiplier)) := by
  have effective := effectiveFrameRate_spans accepted
  rcases ofValues_eq_ok_iff.mp accepted with ⟨rate, factor, ticks, rates, _, counts, rfl⟩
  rcases mapM_eq_ok_iff.mp counts with ⟨rfl, rfl⟩ | ⟨_, own, rfl, read, rfl⟩
  · rcases mapM_eq_ok_iff.mp rates with ⟨rfl, rfl⟩ | ⟨_, own, rfl, read, rfl⟩
    · exact one_spans.widen (by decide) |>.congr (by simp)
    · exact effective.congr (by simp)
  · have bounds := readTickRate_bounds read
    have own := ofDecimal_spans (bounds.2.le.trans (by decide))
    exact own.widen (by decide) |>.congr (by simp [bounds.1])

/-! ## Instants -/

/-- The rates of accepted parameters are finite. The effective frame rate is positive unless
the frame rate is zero or the multiplier begins with zero, and the tick rate is unless it
follows that rate. What an offset in frames or ticks comes to is finite if its rate is
positive and the quotient is not past the greatest number, and what a frame time comes to is
if its rate is positive. -/
theorem ofValues_rates
    (accepted : ofValues frameRate multiplier tickRate = .ok parameters) :
    IsDeclaredRate frameRate parameters.frameRate ∧
    ∃ effective ticks : ℚ,
      Measures parameters.effectiveFrameRate effective ∧ Measures parameters.tickRate ticks ∧
      (0 < effective ↔ parameters.frameRate ≠ 0 ∧ HasNumerator multiplier) ∧
      (0 < ticks ↔ tickRate.isSome = true ∨ frameRate = none ∨ 0 < effective) ∧
      (∀ text offset, Offset.read? text = some offset → IsFinite offset.count.toFloat →
        ∃ count instant, Measures offset.count.toFloat count ∧
          parameters.seconds text = .ok instant ∧
          (offset.metric = .frames → ConvertsAt count effective instant) ∧
          (offset.metric = .ticks → ConvertsAt count ticks instant)) ∧
      ∀ text instant, Kind.frame.recognises text = true → parameters.seconds text = .ok instant →
        (IsFinite instant ↔ 0 < effective) := by
  have spans := effectiveFrameRate_spans accepted
  rcases spans.pos_iff with ⟨effective, effectiveMeasured, effectivePositive⟩
  rcases (tickRate_spans accepted).pos_iff with ⟨ticks, ticksMeasured, ticksPositive⟩
  rw [← effectivePositive] at ticksPositive
  refine ⟨isDeclaredRate_of_accepted accepted, effective, ticks, effectiveMeasured,
    ticksMeasured, effectivePositive, ticksPositive, fun text offset reads finite => ?_,
    fun text instant recognised converted => ?_⟩
  · have measured := finite.measures (ofScientific_isUnsigned _ _ _)
    refine ⟨_, _, measured, seconds_of_offset reads, fun frames => ?_, fun counted => ?_⟩
    · rw [offsetSeconds, frames]
      exact convertsAt_div measured effectiveMeasured
    · rw [offsetSeconds, counted]
      exact convertsAt_div measured ticksMeasured
  · rcases Option.isSome_iff_exists.mp recognised with ⟨time, reads⟩
    rw [seconds_of_frame reads] at converted
    split at converted
    next => cases converted
    next legal =>
      cases converted
      exact (frameSeconds_isFinite_iff (FrameTime.fields_lt reads) spans).trans
        effectivePositive.symm

end

theorem ofValues_of_frameRate {declared : String} {multiplier : Option String} {rate : Nat}
    {factor : Option Float} (rates : readFrameRate declared = .ok rate)
    (factors : multiplier.mapM readMultiplier = .ok factor) :
    ofValues (some declared) multiplier none =
      .ok ⟨rate, ofDecimal rate 0 * factor.getD 1, ofDecimal rate 0 * factor.getD 1, true,
        false⟩ :=
  ofValues_eq_ok_iff.mpr ⟨some rate, factor, none,
    mapM_eq_ok_iff.mpr (.inr ⟨declared, rate, rfl, rates, rfl⟩), factors, rfl, rfl⟩

theorem readMultiplier_of_terms {text : String} {terms : Nat × Nat}
    (found : multiplierTerms? text = some terms) (factors : AreFactors terms) :
    (some text).mapM readMultiplier = .ok (some (ofDecimal terms.1 0 / ofDecimal terms.2 0)) :=
  mapM_eq_ok_iff.mpr (.inr ⟨text, _, rfl,
    readMultiplier_eq_ok_iff.mpr ⟨terms, found, factors, rfl⟩, rfl⟩)

theorem ofValues_rates_thirty :
    ∃ parameters, ofValues (some "30") (some "1000 1001") none = .ok parameters ∧
      ∃ effective ticks : ℚ, Measures parameters.effectiveFrameRate effective ∧
        Measures parameters.tickRate ticks ∧ 0 < effective ∧ 0 < ticks ∧
        ∃ instant, parameters.seconds "00:00:00:29" = .ok instant ∧ IsFinite instant := by
  have found : multiplierTerms? "1000 1001" = some (1000, 1001) := by cbv
  have reads : readFrameRate "30" = .ok 30 := by cbv
  have counts : HasNumerator (some "1000 1001") := by
    rintro _ ⟨⟩ terms own
    cases found.symm.trans own
    decide
  have read : FrameTime.read? "00:00:00:29" = some ⟨0, 0, 0, 29⟩ := by cbv
  obtain ⟨parameters, rate, accepted⟩ : ∃ parameters, parameters.frameRate = 30 ∧
      ofValues (some "30") (some "1000 1001") none = .ok parameters :=
    ⟨_, rfl, ofValues_of_frameRate reads
      (readMultiplier_of_terms found ⟨by decide, by decide, by decide⟩)⟩
  have converted : parameters.seconds "00:00:00:29" = _ := seconds_of_frame read
  rw [rate, if_neg (by decide)] at converted
  rcases ofValues_rates accepted with
    ⟨_, effective, ticks, effectiveMeasured, ticksMeasured, effectivePositive, ticksPositive, _,
      frames⟩
  have some : parameters.frameRate ≠ 0 := rate.trans_ne (by decide)
  have positive := effectivePositive.mpr ⟨some, counts⟩
  exact ⟨parameters, accepted, effective, ticks, effectiveMeasured, ticksMeasured, positive,
    ticksPositive.mpr (.inr (.inr positive)), _, converted,
    (frames _ _ (Option.isSome_iff_exists.mpr ⟨_, read⟩) converted).mpr positive⟩

/-- A frame rate of zero is accepted, and so is a multiplier of zero: then the rates are zero,
and offsets come to infinity or to nothing defined. A long count may do so at a low rate. -/
theorem rates_of_zero :
    (∃ parameters, ofValues (some "0") none none = .ok parameters ∧
      Measures parameters.effectiveFrameRate 0 ∧ Measures parameters.tickRate 0 ∧
      (∃ instant, parameters.seconds "5f" = .ok instant ∧ value instant = .infinite false) ∧
      ∃ instant, parameters.seconds "0t" = .ok instant ∧ value instant = .undefined) ∧
    (∃ parameters, ofValues (some "30") (some "0 1") none = .ok parameters ∧
      Measures parameters.effectiveFrameRate 0 ∧ Measures parameters.tickRate 0) ∧
    ∃ parameters, ofValues (some "1") (some "1 18446744073709551615") none = .ok parameters ∧
      ∃ text offset instant, Offset.read? text = some offset ∧
        IsFinite offset.count.toFloat ∧ parameters.seconds text = .ok instant ∧
        value instant = .infinite false := by
  have none {number : Float} (empty : bits number = 0) : Measures number 0 :=
    measures_iff.mpr ⟨by rw [empty]; decide, by rw [empty, size_zero]⟩
  refine ⟨?_, ?_, ?_⟩
  · have reads : readFrameRate "0" = .ok 0 := by cbv
    have frames : Offset.read? "5f" = some ⟨⟨['5'], .none⟩, .frames⟩ := by cbv
    have ticks : Offset.read? "0t" = some ⟨⟨['0'], .none⟩, .ticks⟩ := by cbv
    refine ⟨_, ofValues_of_frameRate reads rfl, none (by decide +kernel), none (by decide +kernel),
      ⟨_, seconds_of_offset frames, value_infinite_iff.mpr (by decide +kernel)⟩,
      ⟨_, seconds_of_offset ticks, (value_undefined_iff _).mpr (by decide +kernel)⟩⟩
  · have reads : readFrameRate "30" = .ok 30 := by cbv
    have found : multiplierTerms? "0 1" = some (0, 1) := by cbv
    exact ⟨_, ofValues_of_frameRate reads
      (readMultiplier_of_terms found ⟨by decide, by decide, by decide⟩),
      none (by decide +kernel), none (by decide +kernel)⟩
  · have reads : readFrameRate "1" = .ok 1 := by cbv
    have found : multiplierTerms? "1 18446744073709551615" = some (1, 18446744073709551615) := by
      cbv
    have digits : ∀ character ∈ '1' :: List.replicate 300 '0', isDigit character = true := by
      intro character member
      rcases List.mem_cons.mp member with rfl | zero
      · decide
      · rw [List.eq_of_mem_replicate zero]
        decide
    have frames : Offset.read? (String.ofList ('1' :: List.replicate 300 '0' ++ ['f']))
        = some ⟨⟨'1' :: List.replicate 300 '0', .none⟩, .frames⟩ :=
      Offset.read?_eq_some_iff.mpr ⟨⟨digits, List.cons_ne_nil _ _, by simp, by simp⟩,
        String.toList_ofList⟩
    exact ⟨_, ofValues_of_frameRate reads
      (readMultiplier_of_terms found ⟨by decide, by decide, by decide⟩), _, _, _, frames,
      (measures_iff.mpr ⟨by decide +kernel, rfl⟩).isFinite, seconds_of_offset frames,
      value_infinite_iff.mpr (by decide +kernel)⟩

end Parameters

end TimedText.Time
