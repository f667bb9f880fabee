import TimedText.Check.Timing
import TimedText.Proofs.Codes
import TimedText.Proofs.Timing.Visits
/-!
The codes of what is found in the timing of a script.
-/

namespace TimedText

open Verdict

namespace Timing

def scriptTimingCodes : List Code := [
  .ttmlDocumentTiming, .ttmlTimingAttributeSyntax, .daptTimingAttributeConstraint,
  .daptTimingFramerate, .daptTimingOriginTimecode, .daptTimingSegmentOverlap,
  .daptTimingStartOfProgrammeTimecode, .daptTimingTickrate, .daptTimingTimecodeOffset,
  .daptTimingTimecontainer]

/-! ## Timecodes -/

private theorem checkOrigin_usesOnly (parameters : Time.Parameters) (origin start : Timecode)
    (text : String) : (checkOrigin parameters origin start text).UsesOnly scriptTimingCodes := by
  rw [checkOrigin]
  split
  · exact against_usesOnly (by decide)
  · exact (against_usesOnly (by decide)).when _

private theorem checkStart_usesOnly (parameters : Time.Parameters) (start : Timecode)
    (text : String) : (checkStart parameters start text).UsesOnly scriptTimingCodes := by
  rw [checkStart]
  split
  · exact against_usesOnly (by decide)
  · apply UsesOnly.append
    · exact (against_usesOnly (by decide)).when _
    · exact (against_usesOnly (by decide)).when _

private theorem timecodeSeconds_usesOnly (parameters : Time.Parameters) (timecode : Timecode)
    (text : Option String) :
    (timecodeSeconds parameters timecode text).2.UsesOnly scriptTimingCodes := by
  rw [timecodeSeconds]
  split
  · exact silent_usesOnly
  · split
    · exact silent_usesOnly
    · exact against_usesOnly (by decide)

private theorem checkTimecodes_usesOnly (root : Element) (uri : String)
    (parameters : Time.Parameters) :
    (checkTimecodes root uri parameters).UsesOnly scriptTimingCodes := by
  have given {rule : String → Verdict} (text : Option String)
      (each : ∀ value, (rule value).UsesOnly scriptTimingCodes) :
      (text.elim silent rule).UsesOnly scriptTimingCodes := by
    cases text with
    | none => exact silent_usesOnly
    | some value => exact each value
  rw [checkTimecodes]
  dsimp only
  repeat' apply UsesOnly.append
  · exact (against_usesOnly (by decide)).when _
  · exact (against_usesOnly (by decide)).when _
  · exact given _ (checkOrigin_usesOnly _ _ _)
  · exact given _ (checkStart_usesOnly _ _)
  · exact timecodeSeconds_usesOnly _ _ _
  · exact timecodeSeconds_usesOnly _ _ _
  · split
    · exact (remark_usesOnly (by decide)).when _
    · exact silent_usesOnly

/-! ## Resolution -/

private theorem checkScript_usesOnly (parameters : Time.Parameters) (element : Element) :
    (checkScript parameters element).UsesOnly scriptTimingCodes := by
  apply UsesOnly.append
  · apply forEach_usesOnly
    intro name
    rw [forAttribute]
    cases element.attribute? name with
    | none => exact silent_usesOnly
    | some text =>
        refine UsesOnly.append (UsesOnly.append ?_ ?_) ?_
        · exact (against_usesOnly (by decide)).when _
        · exact (against_usesOnly (by decide)).when _
        · exact (against_usesOnly (by decide)).when _
  · rw [checkTimeContainer]
    split
    · exact silent_usesOnly
    · exact remark_usesOnly (by decide)
    · exact against_usesOnly (by decide)

private theorem scriptRules_value_usesOnly (parameters : Time.Parameters) (element : Element)
    (name : String) :
    ((scriptRules parameters).value element name).UsesOnly scriptTimingCodes := by
  dsimp only [scriptRules]
  split
  · exact Attempt.pure_usesOnly _
  · split
    · exact Attempt.pure_usesOnly _
    · apply (Attempt.note_usesOnly (Log.usesOnly_singleton (by decide))).bind
      intro _
      exact Attempt.pure_usesOnly _

private theorem resolve_usesOnly (parameters : Time.Parameters) (path : Path) (body : Element) :
    (resolve (scriptRules parameters) path body).UsesOnly scriptTimingCodes := by
  rw [Attempt.UsesOnly, (resolve_visits (scriptRules parameters) path body).findings]
  apply Log.usesOnly_flatMap
  intro element _
  have value := scriptRules_value_usesOnly parameters element
  change (ownFrame (scriptRules parameters) .start element).UsesOnly scriptTimingCodes
  rw [ownFrame]
  apply (Attempt.judge_usesOnly (checkScript_usesOnly parameters element)).bind
  intro legal
  apply (value "begin").bind
  rintro ⟨begins, beginUsable⟩
  apply (value "end").bind
  rintro ⟨ends, endUsable⟩
  apply (value "dur").bind
  rintro ⟨lasts, durationUsable⟩
  exact Attempt.pure_usesOnly _

private theorem checkSegment_usesOnly {τ : Type} [Quantity τ] (code : Code) (segment : Segment τ)
    (beginning : τ) (ending : Option τ) :
    (checkSegment code segment beginning ending).UsesOnly [code] := by
  rw [checkSegment]
  split
  · exact silent_usesOnly
  · dsimp only
    split
    · exact against_usesOnly List.mem_cons_self
    · exact remark_usesOnly List.mem_cons_self

end Timing

/-! ## Checks -/

namespace Check

open Timing

private theorem scriptTiming_usesOnly (segment : Segment Float) (uri : String) (root : Element) :
    (scriptTiming segment uri root).UsesOnly scriptTimingCodes := by
  have parameters : (parametersOf root uri).UsesOnly scriptTimingCodes := by
    rw [parametersOf]
    split
    · exact Attempt.pure_usesOnly _
    · exact Attempt.stop_usesOnly _
  apply parameters.bind
  intro parameters
  apply (Attempt.judge_usesOnly (checkTimecodes_usesOnly root uri parameters)).bind
  intro timecodes
  split
  · exact Attempt.judge_usesOnly (against_usesOnly (by decide))
  next path body _ =>
    apply (resolve_usesOnly parameters path body).bind
    intro resolution
    have position := checkSegment_usesOnly .daptTimingSegmentOverlap segment
      resolution.beginning resolution.ending
    apply (Attempt.judge_usesOnly (position.mono (by decide))).bind
    intro valid
    apply (Attempt.note_usesOnly (Log.usesOnly_singleton (by decide))).bind
    intro _
    exact Attempt.pure_usesOnly _

theorem checkScriptTiming_usesOnly (segment : Segment Float) (uri : String)
    (root : Element) : (checkScriptTiming segment uri root).UsesOnly scriptTimingCodes := by
  have uses := scriptTiming_usesOnly segment uri root
  rw [checkScriptTiming, orTimingFault]
  split
  · exact uses
  · exact uses.append (Log.usesOnly_singleton (by decide))

end Check

end TimedText
