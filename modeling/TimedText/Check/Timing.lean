import TimedText.Check.Context
import TimedText.Timing.EarlyContent
import TimedText.Timing.Gap
import TimedText.Timing.Resolution
import TimedText.Timing.Segment
import TimedText.Timing.Timecode
/-!
Checks of the timing of whole documents. A fault in computing times is one
finding, and what was found before it stays.
-/

namespace TimedText.Check

open Timing

/-- The first body of a document with its path. A child that only has the local
part of a body counts if there is no other. -/
def timedBody? (uri : String) (root : Element) : Option (Path × Element) :=
  let children := root.placedChildren []
  (children.find? fun (_, child) => child.tag == Name.qualified uri "body").or
    (children.find? fun (_, child) => child.localPart == "body")

/-- An attempt in which a fault counts as a finding. -/
def orTimingFault (attempt : Attempt Bool) : Verdict :=
  match attempt.result with
  | .ok valid => ⟨valid, attempt.findings⟩
  | .error fault =>
    ⟨false, attempt.findings ++
      [.fail .ttmlDocumentTiming "body element or descendants"
        s!"Exception encountered while trying to compute times: {fault.message}"]⟩

def parametersOf (root : Element) (uri : String) : Attempt Time.Parameters :=
  match Time.Parameters.ofRoot root (some uri) with
  | .ok parameters => pure parameters
  | .error fault => .stop (.time fault)

/-! ## Captions -/

/-- Whether a segment is too short for its start to be looked at by itself. -/
def isShort (segment : Segment Float) : Bool :=
  segment.duration.any fun duration => Quantity.less duration earlyWindow

def checkPosition (segment : Segment Float) (resolution : Resolution Float) :
    Verdict :=
  if isShort segment then
    Verdict.remark (.info .bbcTimingMinimumSubtitles "Document"
        ("Skipping check for enough early subtitles because segment duration "
          ++ "is shorter than search period."))
      ++ checkSegment .bbcTimingSegmentOverlap segment resolution.beginning
        resolution.ending
  else checkEarlyContent resolution.timeline segment.windowStart

def checkLayout (context : Context) (timeline : Timeline Float) : Attempt Bool :=
  match context.requirePlacement with
  | .ok (placement, styles) => checkOverlaps timeline placement styles
  | .error _ =>
    Attempt.judge (.remark (.warn .ebuttdOverlappingRegionConstraint "Document"
      ("Skipping check for overlapping regions because region reference checks "
        ++ "appear not to have completed.")))

def captionTiming (segment : Segment Float) (context : Context) (root : Element) :
    Attempt Bool := do
  let parameters ← parametersOf root context.uri
  match timedBody? context.uri root with
  | none =>
    Attempt.judge (.remark (.warn .ttmlElementBody s!"{root.tag} element"
      "No body element found, skipping timing tests"))
  | some (path, body) =>
    let resolution ← resolve (captionRules parameters) path body
    let timeline := resolution.timeline
    let gaps ← Attempt.judge (checkGaps timeline)
    let position ← Attempt.judge (checkPosition segment resolution)
    let layout ← checkLayout context timeline
    Attempt.note [extent resolution.beginning resolution.ending]
    return resolution.valid && gaps && position && layout

def checkCaptionTiming (segment : Segment Float) (context : Context)
    (root : Element) : Verdict :=
  orTimingFault (captionTiming segment context root)

/-! ## Scripts -/

def scriptTiming (segment : Segment Float) (uri : String) (root : Element) :
    Attempt Bool := do
  let parameters ← parametersOf root uri
  let timecodes ← Attempt.judge (checkTimecodes root uri parameters)
  match timedBody? uri root with
  | none =>
    Attempt.judge (.against (.skip .ttmlDocumentTiming s!"{root.tag} element"
      "No body element found, skipping timing tests"))
  | some (path, body) =>
    let resolution ← resolve (scriptRules parameters) path body
    let position ← Attempt.judge (checkSegment .daptTimingSegmentOverlap segment
      resolution.beginning resolution.ending)
    Attempt.note [extent resolution.beginning resolution.ending]
    return timecodes && resolution.valid && position

def checkScriptTiming (segment : Segment Float) (uri : String) (root : Element) :
    Verdict :=
  orTimingFault (scriptTiming segment uri root)

end TimedText.Check
