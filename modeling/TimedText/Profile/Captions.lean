import TimedText.Profile.ConstraintSet
/-!
The profile of captions: subtitles that a broadcaster's player can show, on top
of the broadcast profile of timed text. Checks that file something come before
those that ask for it.
-/

namespace TimedText.Profile

open Check Timing

/-! ## Standards -/

def broadcastCodes : List Code := [
  .xmlXsd, .ttmlAttributeStylingAttribute, .ebuttdParameterTimeBase,
  .ebuttdPXmlIdConstraint, .ebuttdEmptyBodyConstraint,
  .ebuttdEmptyDivConstraint, .ebuttdHeadElementConstraint,
  .ebuttdLayoutElementConstraint, .ebuttdMultiRowAlign,
  .ebuttdNestedDivConstraint, .ebuttdNestedSpanConstraint,
  .ebuttdNestedTimingConstraint, .ebuttdOverlappingRegionConstraint,
  .ebuttdRegionElementConstraint, .ebuttdRegionAttributesConstraint,
  .ebuttdRegionPositionConstraint, .ebuttdStyleElementConstraint,
  .ebuttdInlineStylingConstraint, .ebuttdStylingElementConstraint,
  .ebuttdTimingAttributeConstraint, .imscParameterActiveArea]

def playerCodes : List Code := [
  .bbcBlockBackgroundColorConstraint, .bbcRegionAttributesConstraint,
  .bbcRegionBackgroundColorConstraint, .bbcRegionOverflowConstraint,
  .bbcRegionPositionConstraint, .bbcTextBackgroundColorConstraint,
  .bbcTextColorConstraint, .bbcTextFillLineGapConstraint,
  .bbcTextFontFamilyConstraint, .bbcTextFontSizeConstraint,
  .bbcTextFontStyleConstraint, .bbcTextLineHeightConstraint,
  .bbcTextLinePaddingConstraint, .bbcTextMultiRowAlignConstraint,
  .bbcTextSpanConstraint, .bbcTimingGaps, .bbcTimingMinimumSubtitles,
  .bbcTimingSegmentOverlap]

def broadcast : Standard := ⟨"EBU-TT-D", broadcastCodes, .ebuttdDocumentValidity⟩

def player : Standard := ⟨"BBC", playerCodes, .bbcDocumentValidity⟩

def inPlayer : String := "in the BBC's player"

/-- The summary for the player. A document that meets all standards below may
still be shown in some way. -/
def summarisePlayer (counts : Counts) (mightPlay : Bool) : Finding :=
  let fails := counts.fails
  let warns := counts.warns
  let skips := counts.skips
  let tally := s!"{fails} BBC-related errors and {warns} warnings"
  let unexpected :=
    s!"may play with unexpected appearance {inPlayer}. There were {tally}"
  let unlikely :=
    s!"is likely not to play properly if at all {inPlayer}. There were {tally}"
  if counts.passed then
    .pass player.summary "Document"
      ("Document appears to meet BBC requirements and should play okay "
        ++ s!"{inPlayer}. There were {warns} BBC-related warnings")
  else if skips = 0 then
    let outlook := if mightPlay then "but " ++ unexpected else "and " ++ unlikely
    .fail player.summary "Document"
      s!"Document does not meet BBC requirements {outlook}"
  else
    let outlook :=
      if fails = 0 then
        "conformance to BBC requirements is unclear "
          ++ (if mightPlay then "but " ++ unexpected else "with " ++ tally)
      else "does not meet BBC requirements and " ++ unlikely
    .skip player.summary "Document"
      s!"{skips} BBC requirement checks skipped, document {outlook}"

def concludeCaptions (log : Log) : Conclusion :=
  let xmlCounts := xml.count log
  let coreCounts := core.count log
  let broadcastCounts := broadcast.count log
  let playerCounts := player.count log
  let mightPlay :=
    xmlCounts.fails == 0 && coreCounts.fails == 0 && broadcastCounts.fails == 0
  conclude
    [xml.summarise xmlCounts, core.summarise coreCounts,
      broadcast.summarise broadcastCounts, summarisePlayer playerCounts mightPlay]
    [xmlCounts, coreCounts, broadcastCounts, playerCounts]

/-! ## Checks -/

def paragraphChecks : List ElementCheck :=
  [.hasId, .noLooseText, .lineBreaks, .spans [.notNested] true false]

def captionBody : ElementCheck :=
  .body [.untimed, .divisions [.untimed, .paragraphs paragraphChecks] true]

def captionChecks (segment : Segment Float) (schema : Option Schema) :
    List ElementCheck :=
  [.unqualifiedIds]
    ++ (schema.map (ElementCheck.schema "EBU-TT-D")).toList
    ++ [.uniqueIds, .references, .root, .timeBase ["media"] true, .activeArea false,
      .cellResolution false, .head [.copyright false, .styling, .layout],
      .styleReferences, .inlineStyles, .regionReferences, captionBody,
      .captionTiming segment]

def captions (segment : Segment Float) (schema : Option Schema) : ConstraintSet where
  name := "BBC subtitles"
  byteChecks := [.byteOrderMark, .encoding, .nullBytes, .markup]
  checks := captionChecks segment schema
  conclude := concludeCaptions

end TimedText.Profile
