import TimedText.Attempt
import TimedText.Number.Quantity
import TimedText.Timing.Presence
/-!
The rules for timing attributes that the delivery profiles differ in: which
elements are timed, which values are legal, whether a duration ends an element,
and whether a value without meaning stops the resolution.

In captions only offsets are legal, a duration is prohibited and ignored, and a
value without meaning stops the resolution. In scripts clock times are legal
too, frames and ticks need a declared rate, and a value without meaning is a
finding, after which the attribute counts as absent.
-/

namespace TimedText.Timing

structure Rules (τ : Type) where
  /-- The local parts of the tags of timed elements. -/
  kinds : List String
  /-- Looks at all timing attributes of an element. -/
  check : Element → Verdict
  /-- The value of an attribute of an element, if it is present and has one,
  and whether it can be used. -/
  value : Element → String → Attempt (Option τ × Bool)
  /-- Whether a duration ends an element. -/
  usesDuration : Bool

def location (element : Element) : String :=
  element.tag ++ " element xml:id " ++ element.xmlIdOr "omitted"

def forAttribute (element : Element) (rule : String → String → Verdict)
    (name : String) : Verdict :=
  (element.attribute? name).elim .silent (rule name)

/-! ## Captions -/

def checkCaptionAttribute (location name text : String) : Verdict :=
  .when (!Time.isOffset text)
    (.against (.fail .ebuttdTimingAttributeConstraint location
      s!"{name}={text} is not a valid offset time"))

def checkCaption (element : Element) : Verdict :=
  Verdict.forEach ["begin", "end", "dur"]
      (forAttribute element (checkCaptionAttribute (location element)))
    ++ Verdict.when (element.hasAttribute "dur")
      (.against (.fail .ebuttdTimingAttributeConstraint (location element)
        ("dur attribute present, not permitted in EBU-TT-D - "
          ++ "ignoring in time computations.")))

def captionRules (parameters : Time.Parameters) : Rules Float where
  kinds := ["div", "p", "span"]
  check := checkCaption
  value element name :=
    match element.attribute? name with
    | none => pure (none, true)
    | some text =>
      match parameters.seconds text with
      | .ok seconds => pure (some seconds, true)
      | .error fault => .stop (.time fault)
  usesDuration := false

/-! ## Scripts -/

/-- A script's timing attribute is an offset or a clock time, in units that have
a declared rate. -/
def checkScriptAttribute (parameters : Time.Parameters)
    (location name text : String) : Verdict :=
  Verdict.when (!Time.isOffset text && !Time.isClockTime text)
      (.against (.fail .daptTimingAttributeConstraint location
        s!"{name}={text} is not a valid time expression"))
    ++ Verdict.when (!parameters.declaresFrameRate && Time.usesFrames text)
      (.against (.fail .daptTimingFramerate location
        (s!"{name} attribute {text} uses frames but "
          ++ "frame rate not specified on tt element")))
    ++ Verdict.when (!parameters.declaresTickRate && Time.usesTicks text)
      (.against (.fail .daptTimingTickrate location
        (s!"{name} attribute {text} uses ticks but "
          ++ "tick rate not specified on tt element")))

def checkTimeContainer (element : Element) : Verdict :=
  match element.attribute? "timeContainer" with
  | none => .silent
  | some "par" =>
    .remark (.warn .daptTimingTimecontainer (location element)
      "timeContainer present but should be omitted")
  | some other =>
    .against (.fail .daptTimingTimecontainer (location element)
      s!"timeContainer {other} prohibited")

def checkScript (parameters : Time.Parameters) (element : Element) : Verdict :=
  Verdict.forEach ["begin", "end", "dur", "clipBegin", "clipEnd"]
      (forAttribute element (checkScriptAttribute parameters (location element)))
    ++ checkTimeContainer element

def scriptRules (parameters : Time.Parameters) : Rules Float where
  kinds := ["div", "p", "span", "audio"]
  check := checkScript parameters
  value element name :=
    match element.attribute? name with
    | none => pure (none, true)
    | some text =>
      match parameters.seconds text with
      | .ok seconds => pure (some seconds, true)
      | .error fault => do
        Attempt.note [.fail .ttmlTimingAttributeSyntax
          s!"{location element}, {name} attribute" fault.message]
        return (none, false)
  usesDuration := true

end TimedText.Timing
