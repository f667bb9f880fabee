import TimedText.Finding.Verdict
import TimedText.Timing.Timeline
/-!
Early content: some subtitles have to begin soon after the start, or the
document is likely to be timed for something else.
-/

namespace TimedText.Timing

variable {τ : Type} [Quantity τ]

def fewestEarly : Nat := 2

def earlyWindow : τ := Quantity.decimal (23 * 60) 0

def checkEarlyContent (timeline : Timeline τ) (epoch : τ) : Verdict :=
  let threshold := Quantity.add earlyWindow epoch
  let early := (timeline.withLocalPart "p").countP fun (instant, _) =>
    Quantity.less instant threshold
  if fewestEarly ≤ early then .silent
  else
    .against (.fail .bbcTimingMinimumSubtitles
      s!"p elements beginning before {Quantity.clockText threshold}"
      s!"{early} subtitle(s) found, minimum {fewestEarly} required")

end TimedText.Timing
