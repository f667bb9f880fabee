import TimedText.Proofs.Number.Finite
import TimedText.Proofs.Timing.Crossing
import TimedText.Timing.Segment
/-!
Content and the window of its segment. Content passes if it begins before the window stops
and the window starts before the content ends. That is an instant in common, unless one of
the two is empty. Content that ends before it begins passes as well if both its edges are
within the window, and so does content around the window of a segment without a duration.
-/

namespace TimedText

/-! ## Verdicts of one finding -/

namespace Verdict

variable {code : Code} {verdict : Verdict}

def Passes (code : Code) (verdict : Verdict) : Prop :=
  ∃ location message, verdict = remark (.pass code location message)

def Fails (code : Code) (verdict : Verdict) : Prop :=
  ∃ location message, verdict = against (.fail code location message)

/-- The verdict passes with one finding if the condition holds, and fails with one finding
if it does not. -/
def Tells (code : Code) (condition : Prop) (verdict : Verdict) : Prop :=
  condition ∧ verdict.Passes code ∨ ¬condition ∧ verdict.Fails code

private theorem Passes.not_fails (passes : verdict.Passes code) : ¬verdict.Fails code := by
  rcases passes with ⟨location, message, rfl⟩
  rintro ⟨other, another, same⟩
  cases congrArg Verdict.valid same

theorem Tells.iff_agree {condition other : Prop} (tells : verdict.Tells code condition) :
    verdict.Tells code other ↔ (condition ↔ other) := by
  rcases tells with ⟨holds, passes⟩ | ⟨fails, failure⟩
  · rw [Tells, iff_true_intro holds, true_iff]
    exact or_iff_left_of_imp (fun both => absurd both.2 passes.not_fails)
      |>.trans (and_iff_left passes)
  · rw [Tells, iff_false_intro fails, false_iff]
    have never : ¬verdict.Passes code := fun passes => passes.not_fails failure
    exact or_iff_right (fun both => never both.2) |>.trans (and_iff_left failure)

end Verdict

namespace Timing

/-! ## Windows -/

section

variable {τ : Type} [Quantity τ]

/-- The window of a segment that has a duration, in the times of its document. -/
def Segment.window (segment : Segment τ) (duration : τ) : Interval τ :=
  ⟨segment.windowStart, some (Quantity.add segment.windowStart duration)⟩

structure Interval.HasEdges (interval : Interval τ) : Prop where
  beginning : Quantity.IsDefined interval.beginning
  ending : ∀ ending, interval.ending = some ending → Quantity.IsDefined ending

variable [Quantity.Ordered τ] {code : Code} {segment : Segment τ} {duration : τ}
  {content : Interval τ}

theorem checkSegment_tells (lasts : segment.duration = some duration)
    (window : (segment.window duration).HasEdges) (edges : content.HasEdges) :
    (checkSegment code segment content.beginning content.ending).Tells code
      (content.Crosses (segment.window duration)) := by
  have before := Quantity.Ordered.less_iff_not_le edges.beginning (window.ending _ rfl)
  rw [checkSegment, lasts]
  dsimp only
  split
  next outside =>
    refine .inr ⟨fun crosses => ?_, _, _, rfl⟩
    rcases Bool.or_eq_true_iff.mp outside with late | early
    · exact before.mp (crosses.before _ rfl) late
    · rcases (Option.any_eq_true_iff_get _ _).mp early with ⟨ends, le⟩
      have ended := (Option.some_get ends).symm
      exact (Quantity.Ordered.less_iff_not_le window.beginning (edges.ending _ ended)).mp
        (crosses.after _ ended) le
  next inside =>
    rcases Bool.or_eq_false_iff.mp (Bool.eq_false_of_not_eq_true inside) with ⟨soon, lasting⟩
    refine .inl ⟨⟨?_, ?_⟩, _, _, rfl⟩
    · intro ending stops
      cases stops
      exact before.mpr (Bool.not_eq_true _ ▸ soon)
    · intro ending ends
      rw [ends] at lasting
      exact (Quantity.Ordered.less_iff_not_le window.beginning (edges.ending _ ends)).mpr
        (Bool.not_eq_true _ ▸ lasting)

end

/-! ## Finite times -/

open Number (IsFinite)

variable {code : Code} {segment : Segment Float} {duration : Float}
  {content : Interval Float}

private theorem Segment.windowStart_isFinite (epoch : IsFinite segment.epoch) :
    IsFinite segment.windowStart := by
  rw [windowStart]
  split
  · exact Number.isFinite_of_bits (by decide +kernel)
  · exact epoch

theorem Segment.window_hasEdges (epoch : IsFinite segment.epoch)
    (length : IsFinite duration) : (segment.window duration).HasEdges where
  beginning := (windowStart_isFinite epoch).isDefined
  ending := by
    rintro ending stops
    cases stops
    exact (windowStart_isFinite epoch).add_isDefined length

/-- Content passes if it and the window each begin before the other ends, and fails
otherwise. So the verdict tells whether they have an instant in common, unless one of them
is empty, and yet each begins before the other ends. -/
theorem checkSegment_meets_iff (lasts : segment.duration = some duration)
    (epoch : IsFinite segment.epoch) (length : IsFinite duration)
    (beginning : IsFinite content.beginning)
    (endings : ∀ ending, content.ending = some ending → IsFinite ending) :
    (checkSegment code segment content.beginning content.ending).Tells code
        (content.Crosses (segment.window duration)) ∧
      ((checkSegment code segment content.beginning content.ending).Tells code
          (content.Meets (segment.window duration)) ↔
        ¬(content.Crosses (segment.window duration) ∧
          (content.IsEmpty ∨ (segment.window duration).IsEmpty))) := by
  have edges : content.HasEdges :=
    ⟨beginning.isDefined, fun ending ends => (endings ending ends).isDefined⟩
  have tells : (checkSegment code segment content.beginning content.ending).Tells code
      (content.Crosses (segment.window duration)) :=
    checkSegment_tells lasts (Segment.window_hasEdges epoch length) edges
  refine ⟨tells, ?_⟩
  rw [tells.iff_agree, Interval.meets_iff]
  tauto

def reversedContent : Interval Float := ⟨5, some 3⟩

def tenSeconds : Segment Float := ⟨0, some 10, false⟩

theorem checkSegment_meets_iff_reversed :
    reversedContent.IsEmpty ∧
      (checkSegment .daptTimingSegmentOverlap tenSeconds 5 (some 3)).valid = true ∧
      ¬(checkSegment .daptTimingSegmentOverlap tenSeconds 5 (some 3)).Tells
        .daptTimingSegmentOverlap (reversedContent.Meets (tenSeconds.window 10)) := by
  have finite : ∀ number ∈ [(0 : Float), 10, 5, 3], IsFinite number := by
    intro number member
    apply Number.isFinite_of_bits
    revert number
    decide +kernel
  have empty : reversedContent.IsEmpty := by
    refine (Interval.isEmpty_iff ?_ ?_).mpr ?_ <;> decide +kernel
  have crosses : reversedContent.Crosses (tenSeconds.window 10) := by
    constructor
    · rintro ending stops
      cases stops
      decide +kernel
    · rintro ending ends
      cases ends
      decide +kernel
  refine ⟨empty, by decide +kernel, fun tells => ?_⟩
  have ending : ∀ ending, reversedContent.ending = some ending → IsFinite ending := by
    rintro ending ends
    cases ends
    exact finite 3 (by simp)
  have told : ¬(reversedContent.Crosses (tenSeconds.window 10) ∧
      (reversedContent.IsEmpty ∨ (tenSeconds.window 10).IsEmpty)) :=
    (checkSegment_meets_iff rfl (finite 0 (by simp)) (finite 10 (by simp))
      (finite 5 (by simp)) ending).2.mp tells
  exact told ⟨crosses, .inl empty⟩

end Timing

end TimedText
