import TimedText.Number.Numeral
import TimedText.Text.Blank
/-!
Time expressions. A clock time has hours, minutes and seconds; an offset is a
count in some metric; a frame time has a number of frames after its seconds. No
text is of two of these kinds.
-/

namespace TimedText.Time

open Number

inductive Metric where
  | hours
  | minutes
  | seconds
  | milliseconds
  | frames
  | ticks
deriving DecidableEq, Repr

def Metric.ofChars? : List Char → Option Metric
  | ['h'] => some .hours
  | ['m'] => some .minutes
  | ['s'] => some .seconds
  | ['m', 's'] => some .milliseconds
  | ['f'] => some .frames
  | ['t'] => some .ticks
  | _ => none

structure ClockTime where
  hours : Nat
  minutes : Nat
  seconds : Numeral
deriving DecidableEq, Repr

structure Offset where
  count : Numeral
  metric : Metric
deriving DecidableEq, Repr

structure FrameTime where
  hours : Nat
  minutes : Nat
  seconds : Nat
  frames : Nat
deriving DecidableEq, Repr

def areDigits (least : Nat) (characters : List Char) : Bool :=
  least ≤ characters.length && characters.all Text.isDigit

def areBelowSixty : List Char → Bool
  | [tens, units] => '0' ≤ tens && tens ≤ '5' && Text.isDigit units
  | _ => false

def parts (text : String) : List (List Char) :=
  Text.pieces (· == ':') text.toList

/-- Reads a clock time: hours of two digits or more, minutes of two digits, and
seconds of two digits and perhaps a fraction. -/
def ClockTime.read? (text : String) : Option ClockTime :=
  match parts text with
  | [hours, minutes, seconds] =>
    if areDigits 2 hours && areBelowSixty minutes then
      match Numeral.ofChars? seconds with
      | some numeral =>
        if areBelowSixty numeral.whole then
          some ⟨Text.digitsValue 10 hours, Text.digitsValue 10 minutes, numeral⟩
        else none
      | none => none
    else none
  | _ => none

def Offset.read? (text : String) : Option Offset :=
  match Numeral.take? text.toList with
  | some (count, rest) => (Metric.ofChars? rest).map fun metric => ⟨count, metric⟩
  | none => none

def FrameTime.read? (text : String) : Option FrameTime :=
  match parts text with
  | [hours, minutes, seconds, frames] =>
    if areDigits 2 hours && hours.length == 2 && areBelowSixty minutes
        && areBelowSixty seconds && areDigits 2 frames && frames.length == 2 then
      some ⟨Text.digitsValue 10 hours, Text.digitsValue 10 minutes,
        Text.digitsValue 10 seconds, Text.digitsValue 10 frames⟩
    else none
  | _ => none

def isClockTime (text : String) : Bool := (ClockTime.read? text).isSome

def isOffset (text : String) : Bool := (Offset.read? text).isSome

def isFrameTime (text : String) : Bool := (FrameTime.read? text).isSome

inductive Kind where
  | clock
  | offset
  | frame
deriving DecidableEq, Repr

def Kind.name : Kind → String
  | .clock => "clock"
  | .offset => "offset"
  | .frame => "frame"

def kind? (text : String) : Option Kind :=
  if isClockTime text then some .clock
  else if isOffset text then some .offset
  else if isFrameTime text then some .frame
  else none

def countsIn (metric : Metric) (text : String) : Bool :=
  (Offset.read? text).any fun offset => offset.metric = metric

def usesFrames (text : String) : Bool :=
  isFrameTime text || countsIn .frames text

def usesTicks (text : String) : Bool :=
  countsIn .ticks text

end TimedText.Time
