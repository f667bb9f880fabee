import TimedText.Finding.Log
/-!
Summaries. The findings of a document are counted by the standards that they
bear on, and each standard gets one finding that says how the document stands.
A standard is met when nothing counts against the document, be it a defect or
something that could not be looked at.
-/

namespace TimedText.Profile

structure Counts where
  fails : Nat
  warns : Nat
  skips : Nat
deriving DecidableEq, Repr

def Counts.passed (counts : Counts) : Bool :=
  counts.fails == 0 && counts.skips == 0

/-- A standard: the word for it, the codes of findings that bear on it, and the
code of its summary. -/
structure Standard where
  label : String
  codes : List Code
  summary : Code

namespace Standard

def count (standard : Standard) (log : Log) : Counts :=
  let bearing : Log := log.filter fun finding => standard.codes.contains finding.code
  ⟨Log.count bearing .fail, Log.count bearing .warn, Log.count bearing .skip⟩

def summarise (standard : Standard) (counts : Counts) : Finding :=
  let label := standard.label
  let fails := counts.fails
  let warns := counts.warns
  let skips := counts.skips
  let tally := s!"with {fails} {label}-related failures and {warns} warnings"
  if counts.passed then
    .pass standard.summary "Document"
      (s!"Document appears to be valid {label} with {warns} "
        ++ s!"{label}-related warnings")
  else if skips = 0 then
    .fail standard.summary "Document" s!"Document is not valid {label} {tally}"
  else
    let verdict :=
      if fails = 0 then s!"validity as {label} unclear" else s!"is not valid {label}"
    .skip standard.summary "Document"
      s!"{skips} {label} checks skipped, document {verdict} {tally}"

end Standard

def xmlCodes : List Code := [
  .validatorInternalException, .xmlDocumentValidity, .xmlEncodingDecl,
  .xmlEntityDecl, .preParseNullBytes, .preParseEncoding,
  .preParseByteOrderMark, .preParseByteOrderMarkCorrupt, .xmlParse,
  .xmlIdUnique, .xmlIdUnqualified]

def coreCodes : List Code := [
  .xmlRootElement, .xmlTtNamespace, .ttmlIdrefElementApplicability,
  .ttmlIdrefEmpty, .ttmlIdrefTooMany, .ttmlParameterCellResolution,
  .ttmlDocumentTiming, .ttmlElementBody, .ttmlElementBr, .ttmlElementHead,
  .ttmlElementLayout, .ttmlElementRegion, .ttmlElementStyle,
  .ttmlElementStyling, .ttmlMetadataCopyright, .ttmlLayoutRegionAssociation,
  .ttmlStyling, .ttmlStylingReference, .ttmlStylingReferentialChained,
  .ttmlStylingAttributeApplicability]

def xml : Standard := ⟨"XML", xmlCodes, .xmlDocumentValidity⟩

def core : Standard := ⟨"TTML", coreCodes, .ttmlDocumentValidity⟩

structure Conclusion where
  summaries : Log
  fails : Nat
  skips : Nat

def conclude (summaries : Log) (counts : List Counts) : Conclusion :=
  ⟨summaries, counts.foldr (·.fails + ·) 0, counts.foldr (·.skips + ·) 0⟩

end TimedText.Profile
