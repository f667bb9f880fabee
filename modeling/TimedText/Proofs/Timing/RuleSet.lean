import TimedText.Proofs.Number.Unsigned
import TimedText.Proofs.Run
import TimedText.Timing.Rules
/-!
Rule sets. Whatever a profile holds of timing attributes, an attribute that is
absent has no value under its rules, and no value lies before zero, since time
expressions have no sign. The rules of captions and of scripts are rule sets.
-/

namespace TimedText

open Number

/-! ## Seconds -/

namespace Time.Parameters

structure AreUnsigned (parameters : Parameters) : Prop where
  frameRate : IsUnsigned parameters.effectiveFrameRate
  tickRate : IsUnsigned parameters.tickRate

private theorem ofDecimal_isUnsigned (digits places : Nat) :
    IsUnsigned (ofDecimal digits places) :=
  ofScientific_isUnsigned digits true places

private theorem literal_isUnsigned (number : Nat) : IsUnsigned (OfNat.ofNat number : Float) :=
  ofScientific_isUnsigned number false 0

private theorem readMultiplier_isUnsigned {text : String} {factor : Float}
    (gives : readMultiplier text = .ok factor) : IsUnsigned factor := by
  rw [readMultiplier] at gives
  split at gives
  · split at gives
    · cases gives
      exact (ofDecimal_isUnsigned _ _).div (ofDecimal_isUnsigned _ _)
    · cases gives
  · cases gives

private theorem factor_isUnsigned {multiplier : Option String} {factor : Option Float}
    (gives : multiplier.mapM readMultiplier = .ok factor) :
    IsUnsigned (factor.getD 1) := by
  cases multiplier with
  | none =>
      cases gives
      exact literal_isUnsigned _
  | some text =>
      rw [Option.mapM_some] at gives
      cases reading : readMultiplier text with
      | error fault =>
          rw [reading] at gives
          cases gives
      | ok read =>
          rw [reading] at gives
          cases gives
          exact readMultiplier_isUnsigned reading

private theorem ofValues_areUnsigned {frameRate multiplier tickRate : Option String}
    {parameters : Parameters}
    (declared : ofValues frameRate multiplier tickRate = .ok parameters) :
    parameters.AreUnsigned := by
  rw [ofValues] at declared
  cases rates : frameRate.mapM readFrameRate with
  | error fault =>
      rw [rates] at declared
      cases declared
  | ok rate =>
  cases factors : multiplier.mapM readMultiplier with
  | error fault =>
      rw [rates, factors] at declared
      cases declared
  | ok factor =>
  cases ticking : tickRate.mapM readTickRate with
  | error fault =>
      rw [rates, factors, ticking] at declared
      cases declared
  | ok ticks =>
    rw [rates, factors, ticking] at declared
    cases declared
    have effective : IsUnsigned (ofDecimal (rate.getD 25) 0 * factor.getD 1) :=
      (ofDecimal_isUnsigned _ _).mul (factor_isUnsigned factors)
    refine ⟨effective, ?_⟩
    dsimp only
    split
    · exact ofDecimal_isUnsigned _ _
    · split
      · exact effective
      · exact literal_isUnsigned _

def undeclared : Parameters := ⟨25, ofDecimal 25 0 * 1, 1, false, false⟩

theorem undeclared_areUnsigned : undeclared.AreUnsigned :=
  ofValues_areUnsigned (rfl : ofValues none none none = .ok undeclared)

variable {parameters : Parameters}

private theorem offsetSeconds_isUnsigned (rates : parameters.AreUnsigned) (offset : Offset) :
    IsUnsigned (parameters.offsetSeconds offset) := by
  have count : IsUnsigned offset.count.toFloat := ofDecimal_isUnsigned _ _
  rw [offsetSeconds]
  split
  · exact count.mul (literal_isUnsigned _)
  · exact count.mul (literal_isUnsigned _)
  · exact count
  · exact count.div (literal_isUnsigned _)
  · exact count.div rates.frameRate
  · exact count.div rates.tickRate

private theorem clock_isUnsigned (hours minutes : Nat) {seconds : Float}
    (unsigned : IsUnsigned seconds) :
    IsUnsigned (ofDecimal hours 0 * 3600 + ofDecimal minutes 0 * 60 + seconds) :=
  (((ofDecimal_isUnsigned _ _).mul (literal_isUnsigned _)).add
    ((ofDecimal_isUnsigned _ _).mul (literal_isUnsigned _))).add unsigned

private theorem seconds_isUnsigned (rates : parameters.AreUnsigned) {text : String}
    {seconds : Float} (gives : parameters.seconds text = .ok seconds) :
    IsUnsigned seconds := by
  rw [Parameters.seconds] at gives
  split at gives
  next time _ _ =>
    cases gives
    exact clock_isUnsigned _ _ (ofDecimal_isUnsigned _ _)
  next offset =>
    cases gives
    exact offsetSeconds_isUnsigned rates _
  next time =>
    split at gives
    · cases gives
    · cases gives
      exact (clock_isUnsigned _ _ (ofDecimal_isUnsigned _ _)).add
        ((ofDecimal_isUnsigned _ _).div rates.frameRate)
  next => cases gives

end Time.Parameters

/-! ## Rules -/

theorem Element.attribute?_of_absent {element : Element} {name : String}
    (absent : element.hasAttribute name = false) : element.attribute? name = none := by
  have missing : ∀ pair ∈ element.attributes, ¬(pair.1 == name) = true := by
    simpa [Element.hasAttribute] using absent
  rw [Element.attribute?, List.find?_eq_none.mpr missing]
  rfl

namespace Timing

/-- Rules under which an attribute that is absent has no value. -/
structure RuleSet (τ : Type) extends Rules τ where
  absent {element : Element} {name : String} : element.hasAttribute name = false →
    (value element name).result = .ok (none, true)

/-- Rule sets under which no value lies before zero, as time expressions have no
sign. -/
structure TimeRules (τ : Type) [Quantity τ] extends RuleSet τ where
  unsigned {element : Element} {name : String} {seconds : τ} {usable : Bool} :
    (value element name).result = .ok (some seconds, usable) →
      Quantity.less seconds Quantity.zero = false

variable (parameters : Time.Parameters) (rates : parameters.AreUnsigned)

def TimeRules.captions : TimeRules Float where
  toRules := captionRules parameters
  absent := by
    intro element name absent
    simp only [captionRules, Element.attribute?_of_absent absent]
    rfl
  unsigned := by
    intro element name seconds usable gives
    simp only [captionRules] at gives
    split at gives
    · cases gives
    · split at gives
      next number reads =>
        cases gives
        exact (Time.Parameters.seconds_isUnsigned rates reads).not_less_zero
      next => cases gives

def TimeRules.scripts : TimeRules Float where
  toRules := scriptRules parameters
  absent := by
    intro element name absent
    simp only [scriptRules, Element.attribute?_of_absent absent]
    rfl
  unsigned := by
    intro element name seconds usable gives
    simp only [scriptRules] at gives
    split at gives
    · cases gives
    · split at gives
      next number reads =>
        cases gives
        exact (Time.Parameters.seconds_isUnsigned rates reads).not_less_zero
      next => cases gives

end Timing

end TimedText
