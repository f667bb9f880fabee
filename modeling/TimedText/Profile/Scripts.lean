import TimedText.Profile.ConstraintSet
/-!
The profile of scripts for dubbing and audio description. Vocabulary that is not
recognised is pruned early on, so that most checks see the pruned document.
-/

namespace TimedText.Profile

open Check Timing

def scriptCodes : List Code := [
  .xmlXsd, .xmlPrune, .ebuttdHeadElementConstraint,
  .ttmlMetadataActorReference, .daptMetadataContentDescriptor,
  .daptMetadataDesctypeValidity, .daptMetadataRepresents,
  .daptMetadataScriptRepresents, .ebuttdParameterTimeBase,
  .ttmlParameterContentProfiles, .ttmlTimingAttributeSyntax,
  .daptTimingAttributeConstraint, .daptTimingFramerate,
  .daptTimingOriginTimecode, .daptTimingSegmentOverlap,
  .daptTimingStartOfProgrammeTimecode, .daptTimingTickrate,
  .daptTimingTimecodeOffset, .daptTimingTimecontainer]

def script : Standard := ⟨"DAPT", scriptCodes, .daptDocumentValidity⟩

def concludeScript (log : Log) : Conclusion :=
  let standards := [xml, core, script]
  conclude (standards.map fun standard => standard.summarise (standard.count log))
    (standards.map fun standard => standard.count log)

def scriptContentProfile : String :=
  "http://www.w3.org/ns/ttml/profile/dapt1.0/content"

structure Registries where
  contentDescriptors : Registry
  descriptionTypes : Registry

def Registries.published : Registries :=
  ⟨Registry.contentDescriptors, Registry.descriptionTypes⟩

def scriptChecks (segment : Segment Float) (schema : Option Schema)
    (registries : Registries) : List ElementCheck :=
  [.uniqueIds, .vocabulary]
    ++ (schema.map (ElementCheck.schema "DAPT")).toList
    ++ [.unqualifiedIds, .references, .root, .timeBase ["media"] false,
      .contentProfiles [scriptContentProfile] [] true,
      .head [.copyright false, .actors],
      .descriptionTypes registries.descriptionTypes,
      .contentDescriptors registries.contentDescriptors, .scriptTiming segment]

def scripts (segment : Segment Float) (schema : Option Schema)
    (registries : Registries) : ConstraintSet where
  name := "DAPT"
  byteChecks := [.encoding, .byteOrderMark, .nullBytes, .markup]
  checks := scriptChecks segment schema registries
  conclude := concludeScript

end TimedText.Profile
