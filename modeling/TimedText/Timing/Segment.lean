import TimedText.Finding.Verdict
import TimedText.Number.Quantity
import TimedText.Text.Blank
/-!
Segments: a document may be one of many that follow each other on a longer
timeline. Its content then has to meet the window of its segment.
-/

namespace TimedText.Timing

/-- The place of a document on a longer timeline: where it starts, how long it
lasts if it is one of many, and whether its times count from its start. -/
structure Segment (τ : Type) where
  epoch : τ
  duration : Option τ
  relative : Bool

variable {τ : Type} [Quantity τ]

def Segment.whole : Segment τ := ⟨Quantity.zero, none, false⟩

def Segment.windowStart (segment : Segment τ) : τ :=
  if segment.relative then Quantity.zero else segment.epoch

/-- The verdict on content between two instants, of which the second may be
missing: it meets the window of the segment, the end of either belonging to
neither. -/
def checkSegment (code : Code) (segment : Segment τ) (beginning : τ)
    (ending : Option τ) : Verdict :=
  match segment.duration with
  | none => .silent
  | some duration =>
    let start := segment.windowStart
    let stop := Quantity.add start duration
    let interval := "[" ++ Quantity.text start ++ "s.." ++ Quantity.text stop ++ "s)"
    if Quantity.lessOrEqual stop beginning
        || ending.any fun ending => Quantity.lessOrEqual ending start then
      .against (.fail code "Timed content"
        s!"Document content is timed outside the segment interval {interval}")
    else
      .remark (.pass code "Timed content"
        s!"Document content overlaps the segment interval {interval}")

def extent (beginning : τ) (ending : Option τ) : Finding :=
  let stop := ending.elim "undefined" fun ending => Quantity.text ending ++ "s"
  .info .ttmlDocumentTiming "Document"
    s!"First text appears at {Quantity.text beginning}s, end of doc is {stop}"

/-! ## Segments by file name

The name of a file may start with the number of its segment, which counts from
one. -/

/-- The last part of a path of file names, or the path itself if that is no
file name. -/
def fileName (path : String) : String :=
  let steps := (Text.split '/' path).filter fun step => step != "" && step != "."
  match steps.getLast? with
  | some step => if step == ".." then path else step
  | none => path

/-- Where the segment starts whose number a file name starts with, all segments
being of one duration. -/
def epochOfFile? (path : String) (duration : Float) : Option Float :=
  let digits := (fileName path).toList.takeWhile Text.isDigit
  if digits.isEmpty then none
  else some ((Number.ofDecimal (Text.digitsValue 10 digits) 0 - 1) * duration)

/-- The segment of a file. A name without a number is that of the first one. -/
def Segment.ofFile (path : String) (duration : Float) (relative : Bool) :
    Segment Float :=
  ⟨(epochOfFile? path duration).getD 0, some duration, relative⟩

end TimedText.Timing
