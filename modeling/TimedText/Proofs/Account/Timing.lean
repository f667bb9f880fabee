import TimedText.Check.Timing
import TimedText.Proofs.Account
/-!
The accounts of the checks of timing. A resolution tells whether anything counts
in it; what stops a resolution is one finding of the check.
-/

namespace TimedText

open Verdict

namespace Timing

def captionTimingCharges : List Charge := defects [
  .ttmlDocumentTiming, .ebuttdTimingAttributeConstraint,
  .ebuttdOverlappingRegionConstraint, .bbcTimingGaps, .bbcTimingMinimumSubtitles,
  .bbcTimingSegmentOverlap]

def scriptTimingDefects : List Charge := defects [
  .ttmlDocumentTiming, .ttmlTimingAttributeSyntax, .daptTimingAttributeConstraint,
  .daptTimingFramerate, .daptTimingOriginTimecode, .daptTimingSegmentOverlap,
  .daptTimingStartOfProgrammeTimecode, .daptTimingTickrate, .daptTimingTimecontainer]

abbrev scriptTimingCharges (embodied : Bool) : List Charge :=
  omitting embodied .ttmlDocumentTiming scriptTimingDefects

variable {charges : List Charge}

/-! ## Timelines -/

section

variable {τ : Type} [Quantity τ]

private theorem checkGap_accounts (ending beginning : τ) :
    (checkGap ending beginning).Accounts captionTimingCharges := by
  unfold checkGap
  dsimp only
  split
  · exact fail_accounts (by decide)
  · split
    · exact remark_accounts rfl
    · exact silent_accounts

private theorem checkShowings_accounts (showings : List (Showing τ)) :
    (checkShowings showings).Accounts captionTimingCharges := by
  fun_induction checkShowings showings with
  | case1 first second rest induction =>
      refine Accounts.append ?_ induction
      cases first.ending with
      | none => exact silent_accounts
      | some ending => exact checkGap_accounts ending second.beginning
  | case2 => exact silent_accounts

private theorem checkGaps_accounts (timeline : Timeline τ) :
    (checkGaps timeline).Accounts captionTimingCharges :=
  checkShowings_accounts _

private theorem checkSegment_accounts {code : Code} (known : (.fail, code) ∈ charges)
    (segment : Segment τ) (beginning : τ) (ending : Option τ) :
    (checkSegment code segment beginning ending).Accounts charges := by
  rw [checkSegment]
  split
  · exact silent_accounts
  · dsimp only
    split
    · exact fail_accounts known
    · exact remark_accounts rfl

private theorem checkEarlyContent_accounts (timeline : Timeline τ) (epoch : τ) :
    (checkEarlyContent timeline epoch).Accounts captionTimingCharges := by
  rw [checkEarlyContent]
  dsimp only
  split
  · exact silent_accounts
  · exact fail_accounts (by decide)

private theorem checkInstants_accounts (regions : Regions τ) (instants : List (Instant τ)) :
    (checkInstants regions instants).Accounts captionTimingCharges := by
  induction instants with
  | nil => exact silent_accounts
  | cons first later induction =>
      rcases first with ⟨instant, placed⟩
      refine Accounts.append ?_ induction
      apply forEach_accounts
      intro first
      apply forEach_accounts
      intro ⟨instant, others⟩
      apply Accounts.when
      apply forEach_accounts
      intro later
      exact (fail_accounts (by decide)).when _

private theorem checkOverlaps_accounts (timeline : Timeline τ) (placement : Placement)
    (styles : Catalogue Style.Computed) :
    (checkOverlaps timeline placement styles).Accounts captionTimingCharges true id := by
  apply Attempt.Accounts.bind (Attempt.ofExcept_accounts _)
  intro regions
  exact Attempt.judge_accounts (checkInstants_accounts regions _)

end

/-! ## Timecodes -/

private theorem checkOrigin_accounts (parameters : Time.Parameters) (origin start : Timecode)
    (text : String) :
    (checkOrigin parameters origin start text).Accounts scriptTimingDefects := by
  rw [checkOrigin]
  split
  · exact fail_accounts (by decide)
  · exact (fail_accounts (by decide)).when _

private theorem checkStart_accounts (parameters : Time.Parameters) (start : Timecode)
    (text : String) : (checkStart parameters start text).Accounts scriptTimingDefects := by
  rw [checkStart]
  split
  · exact fail_accounts (by decide)
  · apply Accounts.append
    · exact (fail_accounts (by decide)).when _
    · exact (fail_accounts (by decide)).when _

private theorem timecodeSeconds_accounts (parameters : Time.Parameters)
    (timecode : Timecode) (text : Option String) :
    (timecodeSeconds parameters timecode text).2.Accounts scriptTimingDefects := by
  rw [timecodeSeconds]
  split
  · exact silent_accounts
  · split
    · exact silent_accounts
    · exact fail_accounts (by decide)

theorem checkTimecodes_accounts (root : Element) (uri : String)
    (parameters : Time.Parameters) :
    (checkTimecodes root uri parameters).Accounts scriptTimingDefects := by
  have given {rule : String → Verdict} (text : Option String)
      (each : ∀ value, (rule value).Accounts scriptTimingDefects) :
      (text.elim silent rule).Accounts scriptTimingDefects := by
    cases text with
    | none => exact silent_accounts
    | some value => exact each value
  rw [checkTimecodes]
  dsimp only
  repeat' apply Accounts.append
  · exact (fail_accounts (by decide)).when _
  · exact (fail_accounts (by decide)).when _
  · exact given _ (checkOrigin_accounts _ _ _)
  · exact given _ (checkStart_accounts _ _)
  · exact timecodeSeconds_accounts _ _ _
  · exact timecodeSeconds_accounts _ _ _
  · split
    · exact (remark_accounts rfl).when _
    · exact silent_accounts

/-! ## Resolution -/

private structure Rules.Accounts {τ : Type} (charges : List Charge) (rules : Rules τ) :
    Prop where
  check : ∀ element, (rules.check element).Accounts charges
  value : ∀ element name,
    (rules.value element name).Accounts charges true Prod.snd

private theorem forAttribute_accounts (element : Element) {rule : String → String → Verdict}
    (each : ∀ name text, (rule name text).Accounts charges) (name : String) :
    (forAttribute element rule name).Accounts charges := by
  rw [forAttribute]
  cases element.attribute? name with
  | none => exact silent_accounts
  | some text => exact each name text

private theorem captionRules_accounts (parameters : Time.Parameters) :
    (captionRules parameters).Accounts captionTimingCharges where
  check element := by
    apply Accounts.append
    · exact forEach_accounts (forAttribute_accounts element fun _ _ =>
        (fail_accounts (by decide)).when _)
    · exact (fail_accounts (by decide)).when _
  value element name := by
    rw [captionRules]
    dsimp only
    split
    · exact Attempt.pure_accounts rfl
    · split
      · exact Attempt.pure_accounts rfl
      · exact Attempt.stop_accounts _

private theorem checkScriptAttribute_accounts (parameters : Time.Parameters)
    (location name text : String) :
    (checkScriptAttribute parameters location name text).Accounts scriptTimingDefects := by
  refine Accounts.append (Accounts.append ?_ ?_) ?_
  · exact (fail_accounts (by decide)).when _
  · exact (fail_accounts (by decide)).when _
  · exact (fail_accounts (by decide)).when _

private theorem checkTimeContainer_accounts (element : Element) :
    (checkTimeContainer element).Accounts scriptTimingDefects := by
  rw [checkTimeContainer]
  split
  · exact silent_accounts
  · exact remark_accounts rfl
  · exact fail_accounts (by decide)

private theorem scriptRules_accounts (parameters : Time.Parameters) :
    (scriptRules parameters).Accounts scriptTimingDefects where
  check element := by
    apply Accounts.append
    · exact forEach_accounts (forAttribute_accounts element
        (checkScriptAttribute_accounts parameters _))
    · exact checkTimeContainer_accounts element
  value element name := by
    rw [scriptRules]
    dsimp only
    split
    · exact Attempt.pure_accounts rfl
    · split
      · exact Attempt.pure_accounts rfl
      · apply Attempt.Accounts.bind
          (Attempt.note_accounts (Log.within_fail (by decide)))
        intro _
        exact Attempt.pure_accounts rfl

section

variable {τ : Type} [Quantity τ] {rules : Rules τ}

private theorem ownFrame_accounts (accounts : rules.Accounts charges) (frame : Frame τ)
    (element : Element) :
    (ownFrame rules frame element).Accounts charges true Prod.fst := by
  rw [ownFrame]
  dsimp only
  apply Attempt.Accounts.bind (Attempt.judge_accounts (accounts.check element))
  intro legal
  apply Attempt.Accounts.bind ((accounts.value element "begin").after _)
  intro ⟨begins, beginUsable⟩
  apply Attempt.Accounts.bind ((accounts.value element "end").after _)
  intro ⟨ends, endUsable⟩
  dsimp only
  split
  · apply Attempt.Accounts.bind ((accounts.value element "dur").after _)
    intro ⟨lasts, durationUsable⟩
    exact Attempt.pure_accounts rfl
  · exact Attempt.pure_accounts (by simp)

mutual

private theorem resolveWithin_accounts (accounts : rules.Accounts charges) (frame : Frame τ)
    (path : Path) : ∀ element,
      (resolveWithin rules frame path element).Accounts charges true
        Resolution.valid
  | ⟨tag, attributes, children, text, tail⟩ => by
      rw [resolveWithin]
      apply Attempt.Accounts.bind (ownFrame_accounts accounts frame _)
      intro ⟨usable, own⟩
      apply Attempt.Accounts.bind
        ((resolveChildren_accounts accounts own path 0 children).after usable)
      intro resolutions
      exact Attempt.pure_accounts rfl

private theorem resolveChildren_accounts (accounts : rules.Accounts charges) (frame : Frame τ)
    (path : Path) (index : Nat) : ∀ children,
      (resolveChildren rules frame path index children).Accounts charges true
        fun resolutions => resolutions.all Resolution.valid
  | [] => by
      rw [resolveChildren]
      exact Attempt.pure_accounts rfl
  | child :: rest => by
      rw [resolveChildren]
      split
      · apply Attempt.Accounts.bind
          (resolveWithin_accounts accounts frame (path ++ [index]) child)
        intro first
        apply Attempt.Accounts.bind
          ((resolveChildren_accounts accounts frame path (index + 1) rest).after
            first.valid)
        intro others
        exact Attempt.pure_accounts rfl
      · exact resolveChildren_accounts accounts frame path (index + 1) rest

end

private theorem resolve_accounts (accounts : rules.Accounts charges) (path : Path)
    (root : Element) :
    (resolve rules path root).Accounts charges true Resolution.valid :=
  resolveWithin_accounts accounts _ path root

end

end Timing

/-! ## Checks -/

namespace Check

open Timing

variable {charges : List Charge}

private theorem orTimingFault_accounts {attempt : Attempt Bool}
    (known : (.fail, .ttmlDocumentTiming) ∈ charges) (accounts : attempt.Accounts charges true id) :
    (orTimingFault attempt).Accounts charges := by
  rw [orTimingFault]
  split
  next valid gives => exact ⟨accounts.agrees valid gives, accounts.within⟩
  next fault gives =>
    refine ⟨?_, Log.within_append accounts.within (Log.within_fail known)⟩
    rw [Log.isClean_append]
    exact (Bool.and_false _).symm

private theorem parametersOf_accounts (root : Element) (uri : String) :
    (parametersOf root uri).Accounts charges true fun _ => true := by
  rw [parametersOf]
  split
  · exact Attempt.pure_accounts rfl
  · exact Attempt.stop_accounts _

private theorem checkPosition_accounts (segment : Segment Float)
    (resolution : Resolution Float) :
    (checkPosition segment resolution).Accounts captionTimingCharges := by
  rw [checkPosition]
  split
  · exact (remark_accounts rfl).append (checkSegment_accounts (by decide) _ _ _)
  · exact checkEarlyContent_accounts _ _

private theorem checkLayout_accounts (context : Context) (timeline : Timeline Float) :
    (checkLayout context timeline).Accounts captionTimingCharges true id := by
  rw [checkLayout]
  split
  · exact checkOverlaps_accounts timeline _ _
  · exact Attempt.judge_accounts (remark_accounts rfl)

private theorem captionTiming_accounts (segment : Segment Float) (context : Context)
    (root : Element) :
    (captionTiming segment context root).Accounts captionTimingCharges true id := by
  apply Attempt.Accounts.bind (parametersOf_accounts root context.uri)
  intro parameters
  dsimp only
  split
  · exact Attempt.judge_accounts (remark_accounts rfl)
  next path body _ =>
    apply Attempt.Accounts.bind
      (resolve_accounts (captionRules_accounts parameters) path body)
    intro resolution
    apply Attempt.Accounts.bind (Attempt.judge_accounts (checkGaps_accounts _))
    intro gaps
    apply Attempt.Accounts.bind
      (Attempt.judge_accounts (checkPosition_accounts segment resolution))
    intro position
    apply Attempt.Accounts.bind ((checkLayout_accounts context _).after _)
    intro layout
    apply Attempt.Accounts.bind
      (Attempt.note_accounts (Log.within_of_isClean rfl captionTimingCharges))
    intro _
    exact Attempt.pure_accounts (Bool.and_true _).symm

theorem checkCaptionTiming_accounts (segment : Segment Float) (context : Context)
    (root : Element) :
    (checkCaptionTiming segment context root).Accounts captionTimingCharges :=
  orTimingFault_accounts (by decide)
    (captionTiming_accounts segment context root)

private theorem scriptTiming_accounts (segment : Segment Float) (uri : String)
    (root : Element) :
    (scriptTiming segment uri root).Accounts
      (scriptTimingCharges (timedBody? uri root).isSome) true id := by
  rw [scriptTiming]
  apply Attempt.Accounts.bind (parametersOf_accounts root uri)
  intro parameters
  apply Attempt.Accounts.bind (Attempt.judge_accounts
    ((checkTimecodes_accounts root uri parameters).mono (subset_omitting _ _ _)))
  intro timecodes
  split
  next absent =>
    -- The skip takes the place of what the timecodes say, and is as negative.
    rw [absent]
    refine ⟨?_, (skip_accounts (by decide)).within⟩
    intro valid gives
    cases gives
    exact (Bool.and_false _).symm
  next path body found =>
    rw [found]
    apply Attempt.Accounts.bind
      ((resolve_accounts (scriptRules_accounts parameters) path body).after _)
    intro resolution
    apply Attempt.Accounts.bind
      (Attempt.judge_accounts (checkSegment_accounts (by decide) _ _ _))
    intro position
    apply Attempt.Accounts.bind
      (Attempt.note_accounts (Log.within_of_isClean rfl scriptTimingDefects))
    intro _
    exact Attempt.pure_accounts (Bool.and_true _).symm

theorem checkScriptTiming_accounts (segment : Segment Float) (uri : String)
    (root : Element) :
    (checkScriptTiming segment uri root).Accounts
      (scriptTimingCharges (timedBody? uri root).isSome) :=
  orTimingFault_accounts (subset_omitting _ _ _ (by decide))
    (scriptTiming_accounts segment uri root)

end Check

end TimedText
