/-!
The codes that classify findings. Every rule has its own code, and every code
has the name under which reports and other programs know it. The set is closed:
summaries count findings by code, so no finding goes unclassified by accident.
-/

namespace TimedText

/-- What a finding is about. The order of the constructors is the order in
which codes are listed and sorted. -/
inductive Code where
  | unclassified
  | validatorInternalException
  | preParseNullBytes
  | preParseEncoding
  | preParseByteOrderMark
  | preParseByteOrderMarkCorrupt
  | xmlParse
  | xmlDocumentValidity
  | xmlEncodingDecl
  | xmlEntityDecl
  | xmlIdUnique
  | xmlIdUnqualified
  | xmlRootElement
  | xmlTtNamespace
  | xmlXsd
  | xmlPrune
  | ttmlDocumentValidity
  | ttmlDocumentTiming
  | ttmlAttributeStylingAttribute
  | ttmlElementBody
  | ttmlElementBr
  | ttmlElementHead
  | ttmlElementLayout
  | ttmlElementRegion
  | ttmlElementStyle
  | ttmlElementStyling
  | ttmlIdrefElementApplicability
  | ttmlIdrefEmpty
  | ttmlIdrefTooMany
  | ttmlLayoutRegionAssociation
  | ttmlMetadataActorReference
  | ttmlMetadataCopyright
  | ttmlParameterCellResolution
  | ttmlParameterContentProfiles
  | ttmlStyling
  | ttmlStylingAttributeApplicability
  | ttmlStylingReference
  | ttmlStylingReferentialChained
  | ttmlTimingAttributeSyntax
  | ebuttdDocumentValidity
  | ebuttdEmptyBodyConstraint
  | ebuttdEmptyDivConstraint
  | ebuttdHeadElementConstraint
  | ebuttdInlineStylingConstraint
  | ebuttdLayoutElementConstraint
  | ebuttdMultiRowAlign
  | ebuttdNestedDivConstraint
  | ebuttdNestedSpanConstraint
  | ebuttdNestedTimingConstraint
  | ebuttdOverlappingRegionConstraint
  | ebuttdPXmlIdConstraint
  | ebuttdParameterTimeBase
  | ebuttdRegionAttributesConstraint
  | ebuttdRegionElementConstraint
  | ebuttdRegionPositionConstraint
  | ebuttdStyleElementConstraint
  | ebuttdStylingElementConstraint
  | ebuttdTimingAttributeConstraint
  | imscParameterActiveArea
  | bbcDocumentValidity
  | bbcBlockBackgroundColorConstraint
  | bbcRegionAttributesConstraint
  | bbcRegionBackgroundColorConstraint
  | bbcRegionOverflowConstraint
  | bbcRegionPositionConstraint
  | bbcTextBackgroundColorConstraint
  | bbcTextColorConstraint
  | bbcTextFillLineGapConstraint
  | bbcTextFontFamilyConstraint
  | bbcTextFontSizeConstraint
  | bbcTextFontStyleConstraint
  | bbcTextLineHeightConstraint
  | bbcTextLinePaddingConstraint
  | bbcTextMultiRowAlignConstraint
  | bbcTextSpanConstraint
  | bbcTimingGaps
  | bbcTimingMinimumSubtitles
  | bbcTimingSegmentOverlap
  | daptDocumentValidity
  | daptMetadataContentDescriptor
  | daptMetadataDesctypeValidity
  | daptMetadataRepresents
  | daptMetadataScriptRepresents
  | daptTimingAttributeConstraint
  | daptTimingFramerate
  | daptTimingOriginTimecode
  | daptTimingSegmentOverlap
  | daptTimingStartOfProgrammeTimecode
  | daptTimingTickrate
  | daptTimingTimecodeOffset
  | daptTimingTimecontainer
deriving DecidableEq, Repr, Inhabited

namespace Code

def all : List Code := [
  .unclassified, .validatorInternalException, .preParseNullBytes,
  .preParseEncoding, .preParseByteOrderMark, .preParseByteOrderMarkCorrupt,
  .xmlParse, .xmlDocumentValidity, .xmlEncodingDecl, .xmlEntityDecl,
  .xmlIdUnique, .xmlIdUnqualified, .xmlRootElement, .xmlTtNamespace, .xmlXsd,
  .xmlPrune, .ttmlDocumentValidity, .ttmlDocumentTiming,
  .ttmlAttributeStylingAttribute, .ttmlElementBody, .ttmlElementBr,
  .ttmlElementHead, .ttmlElementLayout, .ttmlElementRegion, .ttmlElementStyle,
  .ttmlElementStyling, .ttmlIdrefElementApplicability, .ttmlIdrefEmpty,
  .ttmlIdrefTooMany, .ttmlLayoutRegionAssociation, .ttmlMetadataActorReference,
  .ttmlMetadataCopyright, .ttmlParameterCellResolution,
  .ttmlParameterContentProfiles, .ttmlStyling,
  .ttmlStylingAttributeApplicability, .ttmlStylingReference,
  .ttmlStylingReferentialChained, .ttmlTimingAttributeSyntax,
  .ebuttdDocumentValidity, .ebuttdEmptyBodyConstraint,
  .ebuttdEmptyDivConstraint, .ebuttdHeadElementConstraint,
  .ebuttdInlineStylingConstraint, .ebuttdLayoutElementConstraint,
  .ebuttdMultiRowAlign, .ebuttdNestedDivConstraint,
  .ebuttdNestedSpanConstraint, .ebuttdNestedTimingConstraint,
  .ebuttdOverlappingRegionConstraint, .ebuttdPXmlIdConstraint,
  .ebuttdParameterTimeBase, .ebuttdRegionAttributesConstraint,
  .ebuttdRegionElementConstraint, .ebuttdRegionPositionConstraint,
  .ebuttdStyleElementConstraint, .ebuttdStylingElementConstraint,
  .ebuttdTimingAttributeConstraint, .imscParameterActiveArea,
  .bbcDocumentValidity, .bbcBlockBackgroundColorConstraint,
  .bbcRegionAttributesConstraint, .bbcRegionBackgroundColorConstraint,
  .bbcRegionOverflowConstraint, .bbcRegionPositionConstraint,
  .bbcTextBackgroundColorConstraint, .bbcTextColorConstraint,
  .bbcTextFillLineGapConstraint, .bbcTextFontFamilyConstraint,
  .bbcTextFontSizeConstraint, .bbcTextFontStyleConstraint,
  .bbcTextLineHeightConstraint, .bbcTextLinePaddingConstraint,
  .bbcTextMultiRowAlignConstraint, .bbcTextSpanConstraint, .bbcTimingGaps,
  .bbcTimingMinimumSubtitles, .bbcTimingSegmentOverlap, .daptDocumentValidity,
  .daptMetadataContentDescriptor, .daptMetadataDesctypeValidity,
  .daptMetadataRepresents, .daptMetadataScriptRepresents,
  .daptTimingAttributeConstraint, .daptTimingFramerate,
  .daptTimingOriginTimecode, .daptTimingSegmentOverlap,
  .daptTimingStartOfProgrammeTimecode, .daptTimingTickrate,
  .daptTimingTimecodeOffset, .daptTimingTimecontainer]

def name : Code → String
  | .unclassified => "unclassified"
  | .validatorInternalException => "validator_internal_exception"
  | .preParseNullBytes => "preParse_nullBytes"
  | .preParseEncoding => "preParse_encoding"
  | .preParseByteOrderMark => "preParse_byteOrderMark"
  | .preParseByteOrderMarkCorrupt => "preParse_byteOrderMark_corrupt"
  | .xmlParse => "xml_parse"
  | .xmlDocumentValidity => "xml_document_validity"
  | .xmlEncodingDecl => "xml_encoding_decl"
  | .xmlEntityDecl => "xml_entity_decl"
  | .xmlIdUnique => "xml_id_unique"
  | .xmlIdUnqualified => "xml_id_unqualified"
  | .xmlRootElement => "xml_root_element"
  | .xmlTtNamespace => "xml_tt_namespace"
  | .xmlXsd => "xml_xsd"
  | .xmlPrune => "xml_prune"
  | .ttmlDocumentValidity => "ttml_document_validity"
  | .ttmlDocumentTiming => "ttml_document_timing"
  | .ttmlAttributeStylingAttribute => "ttml_attribute_styling_attribute"
  | .ttmlElementBody => "ttml_element_body"
  | .ttmlElementBr => "ttml_element_br"
  | .ttmlElementHead => "ttml_element_head"
  | .ttmlElementLayout => "ttml_element_layout"
  | .ttmlElementRegion => "ttml_element_region"
  | .ttmlElementStyle => "ttml_element_style"
  | .ttmlElementStyling => "ttml_element_styling"
  | .ttmlIdrefElementApplicability => "ttml_idref_element_applicability"
  | .ttmlIdrefEmpty => "ttml_idref_empty"
  | .ttmlIdrefTooMany => "ttml_idref_too_many"
  | .ttmlLayoutRegionAssociation => "ttml_layout_region_association"
  | .ttmlMetadataActorReference => "ttml_metadata_actor_reference"
  | .ttmlMetadataCopyright => "ttml_metadata_copyright"
  | .ttmlParameterCellResolution => "ttml_parameter_cellResolution"
  | .ttmlParameterContentProfiles => "ttml_parameter_contentProfiles"
  | .ttmlStyling => "ttml_styling"
  | .ttmlStylingAttributeApplicability => "ttml_styling_attribute_applicability"
  | .ttmlStylingReference => "ttml_styling_reference"
  | .ttmlStylingReferentialChained => "ttml_styling_referential_chained"
  | .ttmlTimingAttributeSyntax => "ttml_timing_attribute_syntax"
  | .ebuttdDocumentValidity => "ebuttd_document_validity"
  | .ebuttdEmptyBodyConstraint => "ebuttd_empty_body_constraint"
  | .ebuttdEmptyDivConstraint => "ebuttd_empty_div_constraint"
  | .ebuttdHeadElementConstraint => "ebuttd_head_element_constraint"
  | .ebuttdInlineStylingConstraint => "ebuttd_inline_styling_constraint"
  | .ebuttdLayoutElementConstraint => "ebuttd_layout_element_constraint"
  | .ebuttdMultiRowAlign => "ebuttd_multiRowAlign"
  | .ebuttdNestedDivConstraint => "ebuttd_nested_div_constraint"
  | .ebuttdNestedSpanConstraint => "ebuttd_nested_span_constraint"
  | .ebuttdNestedTimingConstraint => "ebuttd_nested_timing_constraint"
  | .ebuttdOverlappingRegionConstraint => "ebuttd_overlapping_region_constraint"
  | .ebuttdPXmlIdConstraint => "ebuttd_p_xml_id_constraint"
  | .ebuttdParameterTimeBase => "ebuttd_parameter_timeBase"
  | .ebuttdRegionAttributesConstraint => "ebuttd_region_attributes_constraint"
  | .ebuttdRegionElementConstraint => "ebuttd_region_element_constraint"
  | .ebuttdRegionPositionConstraint => "ebuttd_region_position_constraint"
  | .ebuttdStyleElementConstraint => "ebuttd_style_element_constraint"
  | .ebuttdStylingElementConstraint => "ebuttd_styling_element_constraint"
  | .ebuttdTimingAttributeConstraint => "ebuttd_timing_attribute_constraint"
  | .imscParameterActiveArea => "imsc_parameter_activeArea"
  | .bbcDocumentValidity => "bbc_document_validity"
  | .bbcBlockBackgroundColorConstraint => "bbc_block_backgroundColor_constraint"
  | .bbcRegionAttributesConstraint => "bbc_region_attributes_constraint"
  | .bbcRegionBackgroundColorConstraint =>
    "bbc_region_backgroundColor_constraint"
  | .bbcRegionOverflowConstraint => "bbc_region_overflow_constraint"
  | .bbcRegionPositionConstraint => "bbc_region_position_constraint"
  | .bbcTextBackgroundColorConstraint => "bbc_text_backgroundColor_constraint"
  | .bbcTextColorConstraint => "bbc_text_color_constraint"
  | .bbcTextFillLineGapConstraint => "bbc_text_fillLineGap_constraint"
  | .bbcTextFontFamilyConstraint => "bbc_text_fontFamily_constraint"
  | .bbcTextFontSizeConstraint => "bbc_text_fontSize_constraint"
  | .bbcTextFontStyleConstraint => "bbc_text_fontStyle_constraint"
  | .bbcTextLineHeightConstraint => "bbc_text_lineHeight_constraint"
  | .bbcTextLinePaddingConstraint => "bbc_text_linePadding_constraint"
  | .bbcTextMultiRowAlignConstraint => "bbc_text_multiRowAlign_constraint"
  | .bbcTextSpanConstraint => "bbc_text_span_constraint"
  | .bbcTimingGaps => "bbc_timing_gaps"
  | .bbcTimingMinimumSubtitles => "bbc_timing_minimum_subtitles"
  | .bbcTimingSegmentOverlap => "bbc_timing_segment_overlap"
  | .daptDocumentValidity => "dapt_document_validity"
  | .daptMetadataContentDescriptor => "dapt_metadata_content_descriptor"
  | .daptMetadataDesctypeValidity => "dapt_metadata_desctype_validity"
  | .daptMetadataRepresents => "dapt_metadata_represents"
  | .daptMetadataScriptRepresents => "dapt_metadata_scriptRepresents"
  | .daptTimingAttributeConstraint => "dapt_timing_attribute_constraint"
  | .daptTimingFramerate => "dapt_timing_framerate"
  | .daptTimingOriginTimecode => "dapt_timing_origin_timecode"
  | .daptTimingSegmentOverlap => "dapt_timing_segment_overlap"
  | .daptTimingStartOfProgrammeTimecode =>
    "dapt_timing_start_of_programme_timecode"
  | .daptTimingTickrate => "dapt_timing_tickrate"
  | .daptTimingTimecodeOffset => "dapt_timing_timecode_offset"
  | .daptTimingTimecontainer => "dapt_timing_timecontainer"

def ofName? (name : String) : Option Code :=
  all.find? fun code => code.name == name

def place (code : Code) : Nat :=
  all.idxOf code

def fallback : Code := .unclassified

end Code

end TimedText
