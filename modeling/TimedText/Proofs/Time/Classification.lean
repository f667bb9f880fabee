import TimedText.Proofs.Time.Grammar
/-!
The kinds of time expressions. A text is of one kind at most, and what becomes of it when it
is converted to seconds is told by its kind and, for a frame time, by its number of frames.
-/

namespace TimedText.Time

open Number Text

/-! ## One kind at most -/

def Kind.recognises : Kind → String → Bool
  | .clock => isClockTime
  | .offset => isOffset
  | .frame => isFrameTime

private def Kind.partCount : Kind → Nat
  | .clock => 3
  | .offset => 1
  | .frame => 4

section

variable {text : String} {kind first second : Kind}

theorem Kind.recognises_iff : kind.recognises text = true ↔ text.toList ∈ kind.language := by
  cases kind with
  | clock => exact isClockTime_iff
  | offset => exact isOffset_iff
  | frame => exact isFrameTime_iff

private theorem parts_of_offset {offset : Offset} (reads : Offset.read? text = some offset) :
    parts text = [text.toList] := by
  rcases Offset.read?_eq_some_iff.mp reads with ⟨written, same⟩
  have inSymbol : ':' ∉ offset.metric.symbol := by cases offset.metric <;> decide
  have inCount := colon_not_mem_numeral written
  refine (parts_eq_iff (by simp)).mpr ⟨?_, by simp⟩
  simp [same, inCount, inSymbol]

private theorem Kind.length_parts (recognised : kind.recognises text = true) :
    (parts text).length = kind.partCount := by
  cases kind with
  | clock =>
      rcases isClockTime_parts.mp recognised with ⟨_, _, _, _, same, _⟩
      rw [same]
      rfl
  | offset =>
      rcases Option.isSome_iff_exists.mp recognised with ⟨_, reads⟩
      rw [parts_of_offset reads]
      rfl
  | frame =>
      rcases Option.isSome_iff_exists.mp recognised with ⟨_, reads⟩
      rcases FrameTime.read?_eq_some_iff.mp reads with ⟨_, _, _, _, _, _, _, _, same, _⟩
      rw [same]
      rfl

theorem Kind.recognises_unique (one : first.recognises text = true)
    (other : second.recognises text = true) : first = second := by
  have same := (Kind.length_parts one).symm.trans (Kind.length_parts other)
  cases first <;> cases second <;> first | rfl | cases same

theorem not_recognises (other : Kind) (recognised : kind.recognises text = true)
    (apart : kind ≠ other) : ¬other.recognises text = true :=
  fun also => apart (Kind.recognises_unique recognised also)

theorem kind?_eq_some_iff : kind? text = some kind ↔ kind.recognises text = true := by
  have unique {other : Kind} (own : other.recognises text = true) :
      some other = some kind ↔ kind.recognises text = true := by
    refine ⟨fun same => Option.some.inj same ▸ own, fun recognised => ?_⟩
    rw [Kind.recognises_unique own recognised]
  -- The kinds are tried in turn, but as no text is of two kinds their order does not matter.
  rw [kind?]
  split
  next clock => exact unique clock
  next notClock =>
    split
    next offset => exact unique offset
    next notOffset =>
      split
      next frame => exact unique frame
      next notFrame =>
        refine ⟨nofun, fun recognised => ?_⟩
        cases kind with
        | clock => exact absurd recognised notClock
        | offset => exact absurd recognised notOffset
        | frame => exact absurd recognised notFrame

end

/-! ## Seconds -/

namespace Parameters

section

variable {parameters : Parameters} {text : String}

private theorem seconds_of_clock (clock : Kind.clock.recognises text = true) :
    ∃ instant, parameters.seconds text = .ok instant := by
  rcases Option.isSome_iff_exists.mp clock with ⟨time, reads⟩
  rw [seconds, reads]
  exact ⟨_, rfl⟩

theorem seconds_of_offset {offset : Offset} (reads : Offset.read? text = some offset) :
    parameters.seconds text = .ok (parameters.offsetSeconds offset) := by
  have recognised : Kind.offset.recognises text = true :=
    Option.isSome_iff_exists.mpr ⟨_, reads⟩
  have noClock : ClockTime.read? text = none :=
    Option.not_isSome_iff_eq_none.mp (not_recognises .clock recognised (by decide))
  rw [seconds, noClock, reads]

theorem seconds_of_frame {time : FrameTime} (reads : FrameTime.read? text = some time) :
    parameters.seconds text =
      if parameters.frameRate ≤ time.frames then
        .error (.illegalFrame text parameters.frameRate)
      else
        .ok (ofDecimal time.hours 0 * 3600 + ofDecimal time.minutes 0 * 60
          + ofDecimal time.seconds 0
          + ofDecimal time.frames 0 / parameters.effectiveFrameRate) := by
  have recognised : Kind.frame.recognises text = true :=
    Option.isSome_iff_exists.mpr ⟨_, reads⟩
  have noClock : ClockTime.read? text = none :=
    Option.not_isSome_iff_eq_none.mp (not_recognises .clock recognised (by decide))
  have noOffset : Offset.read? text = none :=
    Option.not_isSome_iff_eq_none.mp (not_recognises .offset recognised (by decide))
  rw [seconds, noClock, noOffset, reads]
  rfl

private theorem seconds_of_none (none : ∀ kind : Kind, ¬kind.recognises text = true) :
    parameters.seconds text = .error (.unrecognised text) := by
  have noClock : ClockTime.read? text = .none := Option.not_isSome_iff_eq_none.mp (none .clock)
  have noOffset : Offset.read? text = .none := Option.not_isSome_iff_eq_none.mp (none .offset)
  have noFrame : FrameTime.read? text = .none := Option.not_isSome_iff_eq_none.mp (none .frame)
  rw [seconds, noClock, noOffset, noFrame]

/-- A frame time that counts no fewer frames than a second has. -/
def HasIllegalFrame (parameters : Parameters) (text : String) : Prop :=
  Kind.frame.recognises text = true ∧
    parameters.frameRate ≤ digitsValue 10 (frameDigits text)

theorem seconds_cases (parameters : Parameters) (text : String) :
    (parameters.seconds text = .error (.unrecognised text) ∧
        (∀ kind : Kind, ¬kind.recognises text = true) ∧ ¬parameters.HasIllegalFrame text) ∨
      (parameters.seconds text = .error (.illegalFrame text parameters.frameRate) ∧
        parameters.HasIllegalFrame text) ∨
      ((∃ instant, parameters.seconds text = .ok instant) ∧
        (∃ kind : Kind, kind.recognises text = true) ∧ ¬parameters.HasIllegalFrame text) := by
  by_cases clock : Kind.clock.recognises text = true
  · refine .inr (.inr ⟨seconds_of_clock clock, ⟨.clock, clock⟩, fun illegal => ?_⟩)
    exact absurd (Kind.recognises_unique clock illegal.1) (by decide)
  by_cases offset : Kind.offset.recognises text = true
  · rcases Option.isSome_iff_exists.mp offset with ⟨_, reads⟩
    refine .inr (.inr ⟨⟨_, seconds_of_offset reads⟩, ⟨.offset, offset⟩, fun illegal => ?_⟩)
    exact absurd (Kind.recognises_unique offset illegal.1) (by decide)
  by_cases frame : Kind.frame.recognises text = true
  · rcases Option.isSome_iff_exists.mp frame with ⟨time, reads⟩
    have counted := frames_of_read reads
    by_cases tooMany : parameters.frameRate ≤ time.frames
    · refine .inr (.inl ⟨?_, frame, counted ▸ tooMany⟩)
      rw [seconds_of_frame reads, if_pos tooMany]
    · refine .inr (.inr ⟨?_, ⟨.frame, frame⟩, fun illegal => tooMany (counted ▸ illegal.2)⟩)
      rw [seconds_of_frame reads, if_neg tooMany]
      exact ⟨_, rfl⟩
  · have none : ∀ kind : Kind, ¬kind.recognises text = true := by
      intro kind
      cases kind with
      | clock => exact clock
      | offset => exact offset
      | frame => exact frame
    exact .inl ⟨seconds_of_none none, none, fun illegal => frame illegal.1⟩

end

/-! ## Accepted parameters -/

section

variable {frameRate multiplier tickRate : Option String} {parameters : Parameters}

theorem mapM_eq_ok_iff {value : Type} {read : String → Except Fault value}
    {declared : Option String} {own : Option value} :
    declared.mapM read = .ok own ↔
      (declared = none ∧ own = none) ∨
        ∃ text found, declared = some text ∧ read text = .ok found ∧ own = some found := by
  cases declared with
  | none => simp [pure, Except.pure, eq_comm]
  | some text => cases same : read text <;> simp [same, eq_comm]

def defaultTickRate (frameRate : Option Nat) (effective : Float) : Float :=
  if frameRate.isSome then effective else 1

theorem ofValues_eq_ok_iff :
    ofValues frameRate multiplier tickRate = .ok parameters ↔
      ∃ rate factor ticks, frameRate.mapM readFrameRate = .ok rate ∧
        multiplier.mapM readMultiplier = .ok factor ∧ tickRate.mapM readTickRate = .ok ticks ∧
        parameters = ⟨rate.getD 25, ofDecimal (rate.getD 25) 0 * factor.getD 1,
          (ticks.map fun ticks => ofDecimal ticks 0).getD
            (defaultTickRate rate (ofDecimal (rate.getD 25) 0 * factor.getD 1)),
          rate.isSome, ticks.isSome⟩ := by
  rw [ofValues]
  cases frameRate.mapM readFrameRate with
  | error fault => simp [bind, Except.bind]
  | ok rate =>
      cases multiplier.mapM readMultiplier with
      | error fault => simp [bind, Except.bind]
      | ok factor =>
          cases tickRate.mapM readTickRate with
          | error fault => simp [bind, Except.bind]
          | ok ticks =>
              refine ⟨fun same => ⟨rate, factor, ticks, rfl, rfl, rfl, ?_⟩, ?_⟩
              · rw [← Except.ok.inj same]
                cases ticks <;> rfl
              · rintro ⟨_, _, _, same, same', same'', rfl⟩
                cases same
                cases same'
                cases same''
                cases ticks <;> rfl

/-- Whether a frame rate is the one that was declared, or the usual one. -/
def IsDeclaredRate (declared : Option String) (rate : Nat) : Prop :=
  (∀ text ∈ declared, readFrameRate text = .ok rate) ∧ (declared = none → rate = 25)

theorem isDeclaredRate_of_accepted
    (accepted : ofValues frameRate multiplier tickRate = .ok parameters) :
    IsDeclaredRate frameRate parameters.frameRate := by
  rcases ofValues_eq_ok_iff.mp accepted with ⟨rate, _, _, reads, _, _, rfl⟩
  rcases mapM_eq_ok_iff.mp reads with ⟨rfl, rfl⟩ | ⟨declared, own, rfl, read, rfl⟩
  · exact ⟨nofun, fun _ => rfl⟩
  · exact ⟨fun text same => Option.some.inj same ▸ read, nofun⟩

/-- The three kinds of time expressions are languages of which no two share a text. With
accepted parameters a text converts to seconds unless it is of no kind or is a frame time
with too many frames, and it needs a frame or tick rate exactly as its metric says. -/
theorem ofValues_classifies
    (accepted : ofValues frameRate multiplier tickRate = .ok parameters) (text : String) :
    ((∀ kind : Kind, kind.recognises text = true ↔ text.toList ∈ kind.language) ∧
      (∀ first second : Kind, first.recognises text = true → second.recognises text = true →
        first = second) ∧
      ∀ kind : Kind, kind? text = some kind ↔ kind.recognises text = true) ∧
    (parameters.seconds text = .error (.unrecognised text) ↔
      ∀ kind : Kind, ¬kind.recognises text = true) ∧
    (parameters.seconds text = .error (.illegalFrame text parameters.frameRate) ↔
      parameters.HasIllegalFrame text) ∧
    ((∃ instant, parameters.seconds text = .ok instant) ↔
      (∃ kind : Kind, kind.recognises text = true) ∧ ¬parameters.HasIllegalFrame text) ∧
    IsDeclaredRate frameRate parameters.frameRate ∧
    (usesFrames text = true ↔
      Kind.frame.recognises text = true ∨ text.toList ∈ offsetsIn .frames) ∧
    (usesTicks text = true ↔ text.toList ∈ offsetsIn .ticks) := by
  refine ⟨⟨fun _ => Kind.recognises_iff, fun _ _ => Kind.recognises_unique,
    fun _ => kind?_eq_some_iff⟩, ?_, ?_, ?_, isDeclaredRate_of_accepted accepted, ?_,
    countsIn_iff⟩
  · rcases seconds_cases parameters text with ⟨same, holds, _⟩ | ⟨same, holds⟩ |
      ⟨⟨_, same⟩, ⟨kind, holds⟩, _⟩
    · exact ⟨fun _ => holds, fun _ => same⟩
    · simp only [same, Except.error.injEq, reduceCtorEq, false_iff]
      exact fun none => none .frame holds.1
    · simp only [same, reduceCtorEq, false_iff]
      exact fun none => none kind holds
  · rcases seconds_cases parameters text with ⟨same, _, holds⟩ | ⟨same, holds⟩ |
      ⟨⟨_, same⟩, _, holds⟩ <;> simp [same, holds]
  · rcases seconds_cases parameters text with ⟨same, none, holds⟩ | ⟨same, holds⟩ |
      ⟨⟨_, same⟩, some, holds⟩
    · simp [same, none]
    · simp [same, holds]
    · simp [same, some, holds]
  · rw [usesFrames, Bool.or_eq_true, countsIn_iff]
    rfl

theorem ofValues_classifies_thirty :
    ∃ parameters, ofValues (some "30") none none = .ok parameters ∧
      parameters.seconds "00:00:00:30" = .error (.illegalFrame "00:00:00:30" 30) ∧
      (∃ instant, parameters.seconds "00:00:00:29" = .ok instant) ∧
      parameters.seconds "0:00:00" = .error (.unrecognised "0:00:00") := by
  have reads : readFrameRate "30" = .ok 30 := by cbv
  have accepted : ofValues (some "30") none none =
      .ok ⟨30, ofDecimal 30 0 * 1, ofDecimal 30 0 * 1, true, false⟩ :=
    ofValues_eq_ok_iff.mpr ⟨some 30, none, none,
      mapM_eq_ok_iff.mpr (.inr ⟨"30", 30, rfl, reads, rfl⟩), rfl, rfl, rfl⟩
  have full : Kind.frame.recognises "00:00:00:30" = true := by cbv
  have filled : digitsValue 10 (frameDigits "00:00:00:30") = 30 := by cbv
  have part : Kind.frame.recognises "00:00:00:29" = true := by cbv
  have below : digitsValue 10 (frameDigits "00:00:00:29") = 29 := by cbv
  have short : ∀ kind : Kind, ¬kind.recognises "0:00:00" = true := by
    intro kind
    cases kind <;> exact Bool.eq_false_iff.mp (by cbv)
  exact ⟨_, accepted,
    (ofValues_classifies accepted "00:00:00:30").2.2.1.mpr ⟨full, filled.ge⟩,
    (ofValues_classifies accepted "00:00:00:29").2.2.2.1.mpr
      ⟨⟨.frame, part⟩, fun illegal => absurd (below ▸ illegal.2) (by decide)⟩,
    (ofValues_classifies accepted "0:00:00").2.1.mpr short⟩

end

end Parameters

end TimedText.Time
