import TimedText.Markup.Element
import TimedText.Time.Expression
/-!
The parameters by which a document's time expressions are converted to seconds:
the frame rate with its multiplier, and the tick rate. A document that declares
none has twenty-five frames and one tick a second.
-/

namespace TimedText.Time

inductive Fault where
  | unrecognised (text : String)
  | illegalFrame (text : String) (frameRate : Nat)
  | invalidFrameRate (text : String)
  | invalidMultiplier (text : String)
  | nonPositiveTickRate
deriving DecidableEq, Repr

def Fault.message : Fault → String
  | .unrecognised text => s!"{text} is not a recognised time expression"
  | .illegalFrame text frameRate =>
    s!"{text} has illegal frame value for frame rate {frameRate}"
  | .invalidFrameRate text => s!"frameRate {text} is not a valid integer"
  | .invalidMultiplier text => s!"Framerate multiplier {text} not valid"
  | .nonPositiveTickRate => "tickrate must be positive integer"

structure Parameters where
  frameRate : Nat
  effectiveFrameRate : Float
  tickRate : Float
  declaresFrameRate : Bool
  declaresTickRate : Bool

namespace Parameters

/-- Reads a frame rate: a whole number below `2 ^ 32`. -/
def readFrameRate (text : String) : Except Fault Nat :=
  match Number.readNatural? (2 ^ 32) (Text.trim text) with
  | some rate => .ok rate
  | none => .error (.invalidFrameRate text)

/-- The numerator and the denominator of a frame rate multiplier: two runs of
digits with one blank between them, at the front of a text. -/
def multiplierTerms? (text : String) : Option (Nat × Nat) :=
  let characters := text.toList
  let numerator := characters.takeWhile Text.isDigit
  match characters.dropWhile Text.isDigit with
  | blank :: rest =>
    let denominator := rest.takeWhile Text.isDigit
    if Text.isBlank blank && !numerator.isEmpty && !denominator.isEmpty then
      some (Text.digitsValue 10 numerator, Text.digitsValue 10 denominator)
    else none
  | [] => none

/-- Reads a frame rate multiplier. Both of its terms are below `2 ^ 64`, and the
second one is not zero. -/
def readMultiplier (text : String) : Except Fault Float :=
  match multiplierTerms? text with
  | some (numerator, denominator) =>
    if numerator < 2 ^ 64 ∧ denominator < 2 ^ 64 ∧ denominator ≠ 0 then
      .ok (Number.ofDecimal numerator 0 / Number.ofDecimal denominator 0)
    else .error (.invalidMultiplier text)
  | none => .error (.invalidMultiplier text)

/-- Reads a tick rate: a positive whole number below `2 ^ 63`. -/
def readTickRate (text : String) : Except Fault Nat :=
  match Number.readWhole? (2 ^ 63) (Text.trim text) with
  | some (.ofNat (rate + 1)) => .ok (rate + 1)
  | _ => .error .nonPositiveTickRate

/-- The parameters for the values that a document declares. Without a tick rate
of its own a document with a frame rate has as many ticks as frames. -/
def ofValues (frameRate multiplier tickRate : Option String) :
    Except Fault Parameters := do
  let rate ← frameRate.mapM readFrameRate
  let factor ← multiplier.mapM readMultiplier
  let effective := Number.ofDecimal (rate.getD 25) 0 * factor.getD 1
  let ticks ← tickRate.mapM readTickRate
  let tickRate :=
    match ticks with
    | some ticks => Number.ofDecimal ticks 0
    | none => if rate.isSome then effective else 1
  return ⟨rate.getD 25, effective, tickRate, rate.isSome, ticks.isSome⟩

/-- The parameters of a document, from the attributes of its root. An attribute
in the parameter namespace is preferred to one of the same name in none. -/
def ofRoot (root : Element) (uri : Option String) : Except Fault Parameters :=
  let parameter := uri.getD Vocabulary.core ++ "#parameter"
  let value (name : String) : Option String :=
    (root.attribute? (Name.qualified parameter name)).or (root.attribute? name)
  ofValues (value "frameRate") (value "frameRateMultiplier") (value "tickRate")

private def clockSeconds (hours minutes : Nat) (seconds : Float) : Float :=
  Number.ofDecimal hours 0 * 3600 + Number.ofDecimal minutes 0 * 60 + seconds

def offsetSeconds (parameters : Parameters) (offset : Offset) : Float :=
  let count := offset.count.toFloat
  match offset.metric with
  | .hours => count * 3600
  | .minutes => count * 60
  | .seconds => count
  | .milliseconds => count / 1000
  | .frames => count / parameters.effectiveFrameRate
  | .ticks => count / parameters.tickRate

/-- The seconds that a time expression stands for. The frames of a frame time
are below the declared frame rate, whatever its multiplier. -/
def seconds (parameters : Parameters) (text : String) : Except Fault Float :=
  match ClockTime.read? text, Offset.read? text, FrameTime.read? text with
  | some time, _, _ =>
    .ok (clockSeconds time.hours time.minutes time.seconds.toFloat)
  | none, some offset, _ => .ok (parameters.offsetSeconds offset)
  | none, none, some time =>
    if parameters.frameRate ≤ time.frames then
      .error (.illegalFrame text parameters.frameRate)
    else
      .ok (clockSeconds time.hours time.minutes (Number.ofDecimal time.seconds 0)
        + Number.ofDecimal time.frames 0 / parameters.effectiveFrameRate)
  | none, none, none => .error (.unrecognised text)

end Parameters

end TimedText.Time
