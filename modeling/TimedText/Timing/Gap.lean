import TimedText.Finding.Verdict
import TimedText.Timing.Timeline
/-!
Gaps between subtitles. A viewer cannot make sense of a screen that goes blank
for an instant: a gap that is there at all has to last, or should last longer
still.
-/

namespace TimedText.Timing

variable {τ : Type} [Quantity τ]

/-- Gaps shorter than this are defects. -/
def shortestGap : τ := Quantity.decimal 8 1

/-- Gaps shorter than this are discouraged. -/
def desiredGap : τ := Quantity.decimal 15 1

/-- When subtitles begin together, and when the last of them ends, if all of
them end. -/
structure Showing (τ : Type) where
  beginning : τ
  ending : Option τ

def Entry.isShown (entry : Entry τ) : Bool :=
  entry.localPart == "p" || entry.localPart == "span"

def Moment.showing? (moment : Moment τ) : Option (Showing τ) :=
  match moment.entries.filter Entry.isShown with
  | [] => none
  | shown => some ⟨moment.instant, latest (shown.map (·.ending))⟩

def checkGap (ending beginning : τ) : Verdict :=
  let gap := Quantity.subtract beginning ending
  let location :=
    s!"Gap from {Quantity.text ending}s to {Quantity.text beginning}s"
  if Quantity.less Quantity.zero gap && Quantity.less gap shortestGap then
    .against (.fail .bbcTimingGaps location
      ("Non-zero gap between subtitles is shorter than "
        ++ Quantity.text (shortestGap : τ) ++ "s"))
  else if Quantity.lessOrEqual shortestGap gap && Quantity.less gap desiredGap then
    .remark (.warn .bbcTimingGaps location
      ("Short gap between subtitles should be at least "
        ++ Quantity.text (desiredGap : τ) ++ "s"))
  else .silent

/-- The verdict on the gaps between each showing and the next. There is no gap
after a showing that does not end. -/
def checkShowings : List (Showing τ) → Verdict
  | first :: second :: rest =>
    (first.ending.elim .silent fun ending => checkGap ending second.beginning)
      ++ checkShowings (second :: rest)
  | _ => .silent

def checkGaps (timeline : Timeline τ) : Verdict :=
  checkShowings (timeline.filterMap Moment.showing?)

end TimedText.Timing
