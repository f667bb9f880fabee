import TimedText.Proofs.Account.Timing
import TimedText.Proofs.Omission
import TimedText.Proofs.Time.Classification
import TimedText.Proofs.Verdict
/-!
Where defects of the two timecodes are reported. What is wrong with a timecode is told at its
own path, and the verdict fails if anything is told. Only the origin that counts frames
without a frame rate is told where the start of the programme would stand.
-/

namespace TimedText.Timing

open Verdict

/-! ## Defects -/

/-- Which texts one of the two timecodes may have, and the code for any other. -/
structure TimecodeRule where
  timecode : Timecode
  fits : String → Bool
  code : Code

def originRule (uri : String) : TimecodeRule :=
  ⟨originTimecode uri, Time.isFrameTime, .daptTimingOriginTimecode⟩

def startRule (uri : String) : TimecodeRule :=
  ⟨startTimecode uri, fun text => Time.isFrameTime text || Time.isOffset text,
    .daptTimingStartOfProgrammeTimecode⟩

@[simp] theorem originRule_timecode (uri : String) :
    (originRule uri).timecode = originTimecode uri := rfl

@[simp] theorem startRule_timecode (uri : String) :
    (startRule uri).timecode = startTimecode uri := rfl

namespace TimecodeRule

/-- What there is to report about a timecode that is given by some elements, where rates that
are not declared are reported for a location of their own. -/
inductive Reports (rule : TimecodeRule) (parameters : Time.Parameters) (rates : String)
    (elements : List Element) : Finding → Prop
  | repeated (many : 1 < elements.length) :
      rule.Reports parameters rates elements (.fail .daptTimingOriginTimecode
        rule.timecode.location
        s!"Expected max 1 {rule.timecode.name}, found {elements.length}")
  | illFormed {text : String} (given : onlyText? elements = some text)
      (other : rule.fits text = false) :
      rule.Reports parameters rates elements (.fail rule.code rule.timecode.location
        s!"{rule.timecode.name} value \"{text}\" is not a valid format")
  | frames {text : String} (given : onlyText? elements = some text)
      (fits : rule.fits text = true) (uses : Time.usesFrames text = true)
      (undeclared : parameters.declaresFrameRate = false) :
      rule.Reports parameters rates elements (.fail .daptTimingFramerate rates
        s!"{rule.timecode.name} uses frames but frame rate not specified on tt element.")
  | ticks {text : String} (given : onlyText? elements = some text)
      (fits : rule.fits text = true) (uses : Time.usesTicks text = true)
      (undeclared : parameters.declaresTickRate = false) :
      rule.Reports parameters rates elements (.fail .daptTimingTickrate rates
        s!"{rule.timecode.name} uses ticks but tick rate not specified on tt element.")
  | unconvertible {text : String} {fault : Time.Fault}
      (given : onlyText? elements = some text) (some : text ≠ "")
      (fails : parameters.seconds text = .error fault) :
      rule.Reports parameters rates elements (.fail .ttmlTimingAttributeSyntax
        rule.timecode.location fault.message)

/-! ## Checking -/

section

variable (rule : TimecodeRule) (parameters : Time.Parameters) (rates : String)

def judgeText (text : String) : Verdict :=
  if !rule.fits text then Timing.illFormed rule.timecode rule.code text
  else
    Verdict.when (Time.usesFrames text && !parameters.declaresFrameRate)
        (undeclared rule.timecode .daptTimingFramerate rates "frames" "frame")
      ++ Verdict.when (Time.usesTicks text && !parameters.declaresTickRate)
        (undeclared rule.timecode .daptTimingTickrate rates "ticks" "tick")

def found (elements : List Element) : Log :=
  (rule.timecode.checkCount elements).findings
    ++ ((onlyText? elements).elim silent (rule.judgeText parameters rates)).findings
    ++ (timecodeSeconds parameters rule.timecode (onlyText? elements)).2.findings

end

variable {rule : TimecodeRule} {parameters : Time.Parameters} {rates text : String}
  {elements : List Element} {finding : Finding}

private theorem undeclared_frames (timecode : Timecode) (location : String) :
    undeclared timecode .daptTimingFramerate location "frames" "frame"
      = against (.fail .daptTimingFramerate location
        s!"{timecode.name} uses frames but frame rate not specified on tt element.") := by
  simp only [undeclared, String.append_assoc]
  rfl

private theorem undeclared_ticks (timecode : Timecode) (location : String) :
    undeclared timecode .daptTimingTickrate location "ticks" "tick"
      = against (.fail .daptTimingTickrate location
        s!"{timecode.name} uses ticks but tick rate not specified on tt element.") := by
  simp only [undeclared, String.append_assoc]
  rfl

private theorem reports_of_mem_judgeText (given : onlyText? elements = some text)
    (member : finding ∈ (rule.judgeText parameters rates text).findings) :
    rule.Reports parameters rates elements finding := by
  rw [judgeText, undeclared_frames, undeclared_ticks] at member
  split at member
  next other =>
    cases List.mem_singleton.mp member
    exact .illFormed given (Bool.not_eq_true' _ ▸ other)
  next fits =>
    have fits : rule.fits text = true := by simpa using fits
    rcases List.mem_append.mp member with member | member
    · rcases mem_when_against.mp member with ⟨missing, rfl⟩
      rcases Bool.and_eq_true_iff.mp missing with ⟨uses, undeclared⟩
      exact .frames given fits uses (Bool.not_eq_true' _ ▸ undeclared)
    · rcases mem_when_against.mp member with ⟨missing, rfl⟩
      rcases Bool.and_eq_true_iff.mp missing with ⟨uses, undeclared⟩
      exact .ticks given fits uses (Bool.not_eq_true' _ ▸ undeclared)

private theorem reports_of_mem_timecodeSeconds
    (member : finding ∈
      (timecodeSeconds parameters rule.timecode (onlyText? elements)).2.findings) :
    rule.Reports parameters rates elements finding := by
  rw [timecodeSeconds] at member
  split at member
  next => cases member
  next text given =>
    rcases Option.filter_eq_some_iff.mp given with ⟨given, some⟩
    split at member
    next => cases member
    next fault fails =>
      cases List.mem_singleton.mp member
      exact .unconvertible given (by simpa using some) fails

private theorem reports_of_mem_found (member : finding ∈ rule.found parameters rates elements) :
    rule.Reports parameters rates elements finding := by
  rw [found, List.mem_append, List.mem_append] at member
  rcases member with (member | member) | member
  · rcases mem_when_against.mp member with ⟨many, rfl⟩
    exact .repeated (of_decide_eq_true many)
  · cases given : onlyText? elements with
    | none =>
        rw [given] at member
        cases member
    | some text =>
        rw [given] at member
        exact reports_of_mem_judgeText given member
  · exact reports_of_mem_timecodeSeconds member

private theorem Reports.mem_found (reports : rule.Reports parameters rates elements finding) :
    finding ∈ rule.found parameters rates elements := by
  rw [found, List.mem_append, List.mem_append]
  cases reports with
  | repeated many => exact .inl (.inl (mem_when_against.mpr ⟨decide_eq_true many, rfl⟩))
  | illFormed given other =>
      rw [given, Option.elim_some, judgeText, other]
      exact .inl (.inr List.mem_cons_self)
  | frames given fits uses undeclared =>
      rw [given, Option.elim_some, judgeText, undeclared_frames, fits, uses, undeclared]
      exact .inl (.inr (List.mem_append_left _ List.mem_cons_self))
  | ticks given fits uses undeclared =>
      rw [given, Option.elim_some, judgeText, undeclared_ticks, fits, uses, undeclared]
      exact .inl (.inr (List.mem_append_right _ List.mem_cons_self))
  | @unconvertible text fault given some fails =>
      have kept : (onlyText? elements).filter (fun text => !text.isEmpty) = .some text :=
        Option.filter_eq_some_iff.mpr ⟨given, by simpa using some⟩
      rw [timecodeSeconds, kept]
      dsimp only
      rw [fails]
      exact .inr List.mem_cons_self

theorem mem_found_iff :
    finding ∈ rule.found parameters rates elements ↔
      rule.Reports parameters rates elements finding :=
  ⟨reports_of_mem_found, Reports.mem_found⟩

theorem Reports.isFail (reports : rule.Reports parameters rates elements finding) :
    finding.status = .fail := by
  cases reports <;> rfl

private theorem Reports.location (reports : rule.Reports parameters rates elements finding) :
    finding.location = rule.timecode.location ∨ finding.location = rates := by
  cases reports with
  | repeated => exact .inl rfl
  | illFormed => exact .inl rfl
  | frames => exact .inr rfl
  | ticks => exact .inr rfl
  | unconvertible => exact .inl rfl

end TimecodeRule

/-! ## The two timecodes -/

variable {root : Element} {uri text : String} {parameters : Time.Parameters}

private theorem usesTicks_of_isFrameTime (frame : Time.isFrameTime text = true) :
    Time.usesTicks text = false := by
  have recognised : Time.Kind.frame.recognises text = true := frame
  have other : ¬Time.isOffset text = true := Time.not_recognises .offset recognised (by decide)
  rw [Time.isOffset, Bool.not_eq_true, Option.isSome_eq_false_iff, Option.isNone_iff_eq_none]
    at other
  rw [Time.usesTicks, Time.countsIn, other, Option.any_none]

private theorem checkOrigin_findings (uri text : String) (parameters : Time.Parameters)
    (start : Timecode) :
    (checkOrigin parameters (originTimecode uri) start text).findings
      = ((originRule uri).judgeText parameters start.location text).findings := by
  rw [checkOrigin, TimecodeRule.judgeText, originRule]
  dsimp only
  split
  · rfl
  next frame =>
    have frame : Time.isFrameTime text = true := by simpa using frame
    rw [usesTicks_of_isFrameTime frame, Time.usesFrames, frame, Bool.true_or, Bool.true_and,
      Bool.false_and]
    exact (List.append_nil _).symm

private theorem checkStart_eq (uri text : String) (parameters : Time.Parameters) :
    checkStart parameters (startTimecode uri) text
      = (startRule uri).judgeText parameters (startTimecode uri).location text := by
  rw [checkStart, TimecodeRule.judgeText, startRule, ← Bool.not_or]

private theorem checkDifference_warns {origin start : String} {first second : Float}
    {finding : Finding}
    (member : finding ∈ (checkDifference origin start first second).findings) :
    finding.status = .warn := by
  rw [checkDifference] at member
  cases different : (first - second != 0) with
  | false =>
      rw [different] at member
      cases member
  | true =>
      rw [different] at member
      cases List.mem_singleton.mp member
      rfl

private theorem elim_checkOrigin_findings (uri : String) (parameters : Time.Parameters)
    (start : Timecode) (given : Option String) :
    (given.elim silent (checkOrigin parameters (originTimecode uri) start)).findings
      = (given.elim silent ((originRule uri).judgeText parameters start.location)).findings := by
  cases given with
  | none => rfl
  | some text => exact checkOrigin_findings uri text parameters start

theorem mem_checkTimecodes_iff (root : Element) (uri : String) (parameters : Time.Parameters)
    {finding : Finding} (fails : finding.status = .fail) :
    finding ∈ (checkTimecodes root uri parameters).findings ↔
      finding ∈ (originRule uri).found parameters (startTimecode uri).location
          ((originTimecode uri).elements uri root) ∨
        finding ∈ (startRule uri).found parameters (startTimecode uri).location
          ((startTimecode uri).elements uri root) := by
  have starts : checkStart parameters (startTimecode uri)
      = (startRule uri).judgeText parameters (startTimecode uri).location :=
    funext fun text => checkStart_eq uri text parameters
  rw [checkTimecodes, starts]
  dsimp only
  rw [Verdict.findings_append, List.mem_append, or_iff_left]
  · simp only [Verdict.findings_append, List.mem_append, elim_checkOrigin_findings,
      TimecodeRule.found, originRule_timecode, startRule_timecode]
    rw [← eq_iff_iff]
    ac_rfl
  · intro member
    split at member
    · cases fails.symm.trans (checkDifference_warns member)
    · cases member

/-! ## Locations -/

private theorem locations_ne (uri : String) :
    (originTimecode uri).location ≠ (startTimecode uri).location := by
  intro same
  have tags := (String.append_right_inj (metadataPath uri ++ "/")).mp same
  exact absurd tags (by decide)

theorem location_of_startRule {elements : List Element} {finding : Finding}
    (reports : (startRule uri).Reports parameters (startTimecode uri).location elements
      finding) : finding.location = (startTimecode uri).location :=
  reports.location.elim id id

theorem location_of_originRule {rates : String} {elements : List Element} {finding : Finding}
    (reports : (originRule uri).Reports parameters rates elements finding) :
    finding.location = (originTimecode uri).location ∨
      finding = .fail .daptTimingFramerate rates
        "daptOriginTimecode uses frames but frame rate not specified on tt element." := by
  cases reports with
  | repeated => exact .inl rfl
  | illFormed => exact .inl rfl
  | frames => exact .inr rfl
  | ticks _ frame uses => cases uses.symm.trans (usesTicks_of_isFrameTime frame)
  | unconvertible => exact .inl rfl

theorem originRule_misplaces_iff (uri : String) (parameters : Time.Parameters)
    (elements : List Element) :
    (∃ finding, (originRule uri).Reports parameters (startTimecode uri).location elements
        finding ∧ finding.location ≠ (originTimecode uri).location) ↔
      ∃ text, onlyText? elements = some text ∧ Time.isFrameTime text = true ∧
        parameters.declaresFrameRate = false := by
  constructor
  · rintro ⟨finding, reports, elsewhere⟩
    cases reports with
    | repeated => exact absurd rfl elsewhere
    | illFormed => exact absurd rfl elsewhere
    | @frames text given frame uses undeclared => exact ⟨text, given, frame, undeclared⟩
    | ticks _ frame uses => cases uses.symm.trans (usesTicks_of_isFrameTime frame)
    | unconvertible => exact absurd rfl elsewhere
  · rintro ⟨text, given, frame, undeclared⟩
    have uses : Time.usesFrames text = true := by rw [Time.usesFrames, frame, Bool.true_or]
    exact ⟨_, .frames given frame uses undeclared, (locations_ne uri).symm⟩

/-- The verdict on the timecodes is negative exactly if some defect is told, and the defects
told are those of the two rules. All that is wrong with the start is told at its path; of what
is wrong with the origin, all but a missing frame rate is, and that is told at the path of the
start. -/
theorem checkTimecodes_locates_iff (root : Element) (uri : String)
    (parameters : Time.Parameters) :
    let origin := originTimecode uri
    let start := startTimecode uri
    let origins := origin.elements uri root
    let starts := start.elements uri root
    let verdict := checkTimecodes root uri parameters
    (verdict.valid = false ↔ ∃ finding ∈ verdict.findings, finding.status = .fail) ∧
      (∀ finding, finding ∈ verdict.findings ∧ finding.status = .fail ↔
        (originRule uri).Reports parameters start.location origins finding ∨
          (startRule uri).Reports parameters start.location starts finding) ∧
      (∀ finding, (startRule uri).Reports parameters start.location starts finding →
        finding.location = start.location) ∧
      (∀ finding, (originRule uri).Reports parameters start.location origins finding →
        finding.location = origin.location ∨
          finding = .fail .daptTimingFramerate start.location
            "daptOriginTimecode uses frames but frame rate not specified on tt element.") ∧
      ((∃ finding, (originRule uri).Reports parameters start.location origins finding ∧
          finding.location ≠ origin.location) ↔
        ∃ text, onlyText? origins = some text ∧ Time.isFrameTime text = true ∧
          parameters.declaresFrameRate = false) := by
  intro origin start origins starts verdict
  refine ⟨?_, fun finding => ⟨?_, ?_⟩, fun _ => location_of_startRule,
    fun _ => location_of_originRule, originRule_misplaces_iff uri parameters origins⟩
  · exact (checkTimecodes_accounts root uri parameters).valid_eq_false_iff (defects_fail _)
  · rintro ⟨member, fails⟩
    exact ((mem_checkTimecodes_iff root uri parameters fails).mp member).imp
      TimecodeRule.mem_found_iff.mp TimecodeRule.mem_found_iff.mp
  · intro reports
    have fails : finding.status = .fail := reports.elim (·.isFail) (·.isFail)
    have found := reports.imp TimecodeRule.mem_found_iff.mpr TimecodeRule.mem_found_iff.mpr
    exact ⟨(mem_checkTimecodes_iff root uri parameters fails).mpr found, fails⟩

def undeclaredOrigin : Element :=
  let core name children text : Element :=
    ⟨Name.qualified Vocabulary.core name, [], children, text, none⟩
  let timecode : Element :=
    ⟨(originTimecode Vocabulary.core).tag, [], [], some "10:00:00:00", none⟩
  core "tt" [core "head" [core "metadata" [timecode] none] none] none

def undeclaredRates : Time.Parameters := ⟨25, 25, 1, false, false⟩

theorem checkTimecodes_locates_iff_undeclared :
    ∃ finding ∈ (checkTimecodes undeclaredOrigin Vocabulary.core undeclaredRates).findings,
      (originRule Vocabulary.core).Reports undeclaredRates
          (startTimecode Vocabulary.core).location
          ((originTimecode Vocabulary.core).elements Vocabulary.core undeclaredOrigin) finding ∧
        finding.location ≠ (originTimecode Vocabulary.core).location := by
  rcases checkTimecodes_locates_iff undeclaredOrigin Vocabulary.core undeclaredRates
    with ⟨-, told, -, -, misplaces⟩
  rcases misplaces.mpr ⟨"10:00:00:00", by decide +kernel, by decide +kernel, rfl⟩
    with ⟨finding, reports, elsewhere⟩
  exact ⟨finding, ((told finding).mpr (.inl reports)).1, reports, elsewhere⟩

end TimedText.Timing
