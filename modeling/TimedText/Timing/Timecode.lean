import TimedText.Finding.Verdict
import TimedText.Number.Written
import TimedText.Time.Parameters
/-!
Timecodes in the metadata of a script: the timecode of the origin of its times,
and that of the start of the programme. Each is given once at most. Where both
are given and differ, the times of the document are likely to be off by as much.
-/

namespace TimedText.Timing

/-- One of the two timecodes: its element, the code for a value in no fitting
format, and the place that a missing frame rate is reported for. -/
structure Timecode where
  tag : String
  name : String
  location : String

def metadataPath (uri : String) : String :=
  "./" ++ Name.qualified uri "head" ++ "/" ++ Name.qualified uri "metadata"

def originTimecode (uri : String) : Timecode :=
  let tag := Name.qualified Vocabulary.scriptMetadata "daptOriginTimecode"
  ⟨tag, "daptOriginTimecode", s!"{metadataPath uri}/{tag}"⟩

def startTimecode (uri : String) : Timecode :=
  let tag := Name.qualified Vocabulary.broadcastMetadata "documentStartOfProgramme"
  ⟨tag, "documentStartOfProgramme", s!"{metadataPath uri}/{tag}"⟩

def Timecode.elements (timecode : Timecode) (uri : String) (root : Element) :
    List Element :=
  root.reached [Name.qualified uri "head", Name.qualified uri "metadata", timecode.tag]

def Timecode.checkCount (timecode : Timecode) (elements : List Element) : Verdict :=
  .when (1 < elements.length)
    (.against (.fail .daptTimingOriginTimecode timecode.location
      s!"Expected max 1 {timecode.name}, found {elements.length}"))

def onlyText? : List Element → Option String
  | [element] => some (element.text.getD "")
  | _ => none

def undeclared (timecode : Timecode) (code : Code) (location units rate : String) :
    Verdict :=
  .against (.fail code location
    s!"{timecode.name} uses {units} but {rate} rate not specified on tt element.")

def illFormed (timecode : Timecode) (code : Code) (text : String) : Verdict :=
  .against (.fail code timecode.location
    s!"{timecode.name} value \"{text}\" is not a valid format")

/-- The verdict on the origin: it is a frame time, and the frame rate is
declared. A missing rate is reported where the start would stand. -/
def checkOrigin (parameters : Time.Parameters) (origin start : Timecode)
    (text : String) : Verdict :=
  if !Time.isFrameTime text then
    illFormed origin .daptTimingOriginTimecode text
  else
    .when (!parameters.declaresFrameRate)
      (undeclared origin .daptTimingFramerate start.location "frames" "frame")

def checkStart (parameters : Time.Parameters) (start : Timecode) (text : String) :
    Verdict :=
  if !Time.isFrameTime text && !Time.isOffset text then
    illFormed start .daptTimingStartOfProgrammeTimecode text
  else
    Verdict.when (Time.usesFrames text && !parameters.declaresFrameRate)
        (undeclared start .daptTimingFramerate start.location "frames" "frame")
      ++ Verdict.when (Time.usesTicks text && !parameters.declaresTickRate)
        (undeclared start .daptTimingTickrate start.location "ticks" "tick")

/-- The seconds of a timecode that is given and not empty, and the verdict on
converting it. -/
def timecodeSeconds (parameters : Time.Parameters) (timecode : Timecode)
    (text : Option String) : Option Float × Verdict :=
  match text.filter fun text => !text.isEmpty with
  | none => (none, .silent)
  | some text =>
    match parameters.seconds text with
    | .ok seconds => (some seconds, .silent)
    | .error fault =>
      (none, .against
        (.fail .ttmlTimingAttributeSyntax timecode.location fault.message))

def checkDifference (originText startText : String) (origin start : Float) :
    Verdict :=
  let difference := origin - start
  .when (difference != 0)
    (.remark (.warn .daptTimingTimecodeOffset "Timecode-related metadata"
      (s!"Non-zero delta between daptOriginTimecode {originText} and "
        ++ s!"documentStartOfProgramme {startText} "
        ++ "suggests document times may need to be offset by "
        ++ s!"{Number.fixedText 3 difference}s")))

def checkTimecodes (root : Element) (uri : String) (parameters : Time.Parameters) :
    Verdict :=
  let origin := originTimecode uri
  let start := startTimecode uri
  let origins := origin.elements uri root
  let starts := start.elements uri root
  let originText := onlyText? origins
  let startText := onlyText? starts
  let (originSeconds, originVerdict) := timecodeSeconds parameters origin originText
  let (startSeconds, startVerdict) := timecodeSeconds parameters start startText
  let difference :=
    match originSeconds, startSeconds with
    | some origin, some start =>
      checkDifference (originText.getD "") (startText.getD "") origin start
    | _, _ => .silent
  origin.checkCount origins
    ++ start.checkCount starts
    ++ originText.elim .silent (checkOrigin parameters origin start)
    ++ startText.elim .silent (checkStart parameters start)
    ++ originVerdict
    ++ startVerdict
    ++ difference

end TimedText.Timing
