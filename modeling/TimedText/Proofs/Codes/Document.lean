import TimedText.Check.Composition
import TimedText.Check.Bytes
import TimedText.Proofs.Codes
/-!
The codes of what is found in the bytes of a script, at its ids, at its parameters, in its
head, among its vocabulary and at its metadata, and of what is found at the content of
captions. Every lemma names the codes that its check uses.
-/

namespace TimedText.Check

open Verdict

/-! ## Bytes -/

def byteCodes : List Code := [
  .preParseNullBytes, .preParseEncoding, .preParseByteOrderMark,
  .preParseByteOrderMarkCorrupt, .xmlDocumentValidity, .xmlEncodingDecl, .xmlEntityDecl]

theorem checkNullBytes_usesOnly (bytes : Text.Bytes) :
    (checkNullBytes bytes).UsesOnly byteCodes := by
  rw [checkNullBytes]
  cases bytes.findIdx? (· == 0) with
  | none => exact Log.usesOnly_singleton (by decide)
  | some first => exact Log.usesOnly_singleton (by decide)

theorem checkEncoding_usesOnly (bytes : Text.Bytes) :
    (checkEncoding bytes).UsesOnly byteCodes := by
  rw [checkEncoding]
  split
  · apply (Attempt.note_usesOnly (Log.usesOnly_singleton (by decide))).bind
    intro _
    apply (Attempt.ofExcept_usesOnly _).bind
    intro mended
    exact Attempt.pure_usesOnly _
  · cases Text.Utf8.decode bytes with
    | error defect => exact Log.usesOnly_singleton (by decide)
    | ok characters => exact Log.usesOnly_singleton (by decide)

theorem checkByteOrderMark_usesOnly (bytes : Text.Bytes) :
    (checkByteOrderMark bytes).UsesOnly byteCodes := by
  rw [checkByteOrderMark]
  dsimp only
  split
  · exact Log.usesOnly_singleton (by decide)
  · apply (Attempt.note_usesOnly (Log.usesOnly_singleton (by decide))).bind
    intro _
    split
    · exact Attempt.pure_usesOnly _
    · exact Attempt.stop_usesOnly _
  · split
    · exact Log.usesOnly_singleton (by decide)
    · exact Log.usesOnly_singleton (by decide)

theorem checkDeclaration_usesOnly (declaration : Option Markup.Declaration) :
    (checkDeclaration declaration).UsesOnly byteCodes := by
  unfold checkDeclaration
  split
  · exact remark_usesOnly (by decide)
  · exact remark_usesOnly (by decide)
  · split
    · exact remark_usesOnly (by decide)
    · exact against_usesOnly (by decide)

theorem checkEntities_usesOnly (entities : List String) :
    (checkEntities entities).UsesOnly byteCodes := by
  rw [checkEntities]
  split
  · exact remark_usesOnly (by decide)
  · exact against_usesOnly (by decide)

theorem checkStructure_usesOnly (bytes : Text.Bytes) :
    (checkStructure bytes).UsesOnly byteCodes := by
  rw [checkStructure]
  refine UsesOnly.append (UsesOnly.append ?_ ?_) ?_
  · split
    · exact silent_usesOnly
    · exact against_usesOnly (by decide)
  · exact checkDeclaration_usesOnly _
  · exact checkEntities_usesOnly _

theorem ByteCheck.run_usesOnly (check : ByteCheck) (bytes : Text.Bytes) :
    (check.run bytes).UsesOnly byteCodes := by
  cases check with
  | byteOrderMark => exact checkByteOrderMark_usesOnly bytes
  | encoding => exact checkEncoding_usesOnly bytes
  | nullBytes => exact checkNullBytes_usesOnly bytes
  | markup => exact checkStructure_usesOnly bytes

/-! ## Identifiers -/

theorem checkIds_usesOnly (root : Element) : (checkIds root).UsesOnly [.xmlIdUnique] := by
  apply (Run.change_usesOnly _).bind
  intro _
  apply Run.judge_usesOnly
  rw [checkUnique]
  dsimp only
  split
  · exact remark_usesOnly (by decide)
  · exact forEach_usesOnly fun _ => against_usesOnly (by decide)

def referenceCodes : List Code := [
  .ttmlIdrefElementApplicability, .ttmlIdrefEmpty, .ttmlIdrefTooMany]

theorem checkTarget_usesOnly (targets : Catalogue String) (kind : ReferenceKind)
    (location reference : String) :
    (checkTarget targets kind location reference).UsesOnly referenceCodes := by
  rw [checkTarget]
  split
  · exact silent_usesOnly
  · exact (against_usesOnly (by decide)).when _

theorem checkReferences_usesOnly (targets : Catalogue String) (element : Element)
    (kind : ReferenceKind) :
    (checkReferences targets element kind).UsesOnly referenceCodes := by
  rw [checkReferences]
  split
  · exact silent_usesOnly
  · dsimp only
    split
    · exact against_usesOnly (by decide)
    · exact ((against_usesOnly (by decide)).when _).append
        (forEach_usesOnly fun reference => checkTarget_usesOnly targets kind _ reference)

theorem checkAllReferences_usesOnly (root : Element) :
    (checkAllReferences root).UsesOnly referenceCodes :=
  UsesOnly.affirm (forEach_usesOnly fun element => forEach_usesOnly fun kind =>
    checkReferences_usesOnly _ element kind) (by decide)

/-! ## Parameters -/

theorem checkAbsent_usesOnly (required : Bool) (code : Code) (location name : String) :
    (checkAbsent required code location name).UsesOnly [code] := by
  rw [checkAbsent]
  split
  · exact against_usesOnly List.mem_cons_self
  · exact remark_usesOnly List.mem_cons_self

theorem fileRoot_usesOnly (root : Element) :
    (fileRoot root).UsesOnly [.xmlTtNamespace, .xmlRootElement] := by
  apply (Run.change_usesOnly _).bind
  intro _
  apply Run.judge_usesOnly
  rw [checkRoot]
  apply UsesOnly.append
  · split
    · exact remark_usesOnly (by decide)
    · exact against_usesOnly (by decide)
  · split
    · exact remark_usesOnly (by decide)
    · exact against_usesOnly (by decide)

theorem checkTimeBase_usesOnly (allowed : List String) (required : Bool) (uri : String)
    (root : Element) :
    (checkTimeBase allowed required uri root).UsesOnly [.ebuttdParameterTimeBase] := by
  rw [checkTimeBase]
  dsimp only
  split
  · exact checkAbsent_usesOnly _ _ _ _
  · split
    · exact remark_usesOnly (by decide)
    · exact against_usesOnly (by decide)

theorem checkContentProfiles_usesOnly (accepted denied : List String) (required : Bool)
    (uri : String) (root : Element) :
    (checkContentProfiles accepted denied required uri root).UsesOnly
      [.ttmlParameterContentProfiles] := by
  rw [checkContentProfiles]
  dsimp only
  split
  · exact checkAbsent_usesOnly _ _ _ _
  · split
    · exact against_usesOnly (by decide)
    · refine UsesOnly.affirm (UsesOnly.append ?_ ?_) (by decide)
      · exact forEach_usesOnly fun _ => against_usesOnly (by decide)
      · exact (against_usesOnly (by decide)).when _

theorem checkSchema_usesOnly (name : String) (schema : Schema) (root : Element) :
    (checkSchema name schema root).UsesOnly [.xmlXsd] := by
  rw [checkSchema]
  split
  · exact remark_usesOnly (by decide)
  · exact against_usesOnly (by decide)

/-! ## Head -/

theorem checkCopyright_usesOnly (required : Bool) (uri : String) (head : Element) :
    (checkCopyright required uri head).UsesOnly [.ttmlMetadataCopyright] := by
  unfold checkCopyright
  dsimp only
  split
  · split
    · exact against_usesOnly (by decide)
    · exact remark_usesOnly (by decide)
  · exact remark_usesOnly (by decide)
  · exact remark_usesOnly (by decide)

theorem checkActors_usesOnly (head : Element) :
    (checkActors head).UsesOnly [.ttmlMetadataActorReference] := by
  refine UsesOnly.affirm (forEach_usesOnly fun agent => ?_) (by decide)
  rw [checkAgent]
  split
  · exact silent_usesOnly
  · exact forEach_usesOnly fun _ => against_usesOnly (by decide)

/-! ## Vocabulary -/

theorem pruningFindings_usesOnly (removals : List Removal) :
    Log.UsesOnly [.xmlPrune] (pruningFindings removals) := by
  intro finding member
  rcases List.mem_map.mp member with ⟨uri, -, rfl⟩
  exact List.mem_cons_self

theorem checkVocabulary_usesOnly (root : Element) :
    (checkVocabulary root).UsesOnly [.xmlPrune] := by
  have noted := Run.note_usesOnly (pruningFindings_usesOnly (prune root).2)
  have ends := noted.bind fun _ => Run.pure_usesOnly true
  rw [checkVocabulary]
  dsimp only
  split
  · exact (Run.change_usesOnly _).bind fun _ => ends
  · exact ends

/-! ## Scripts -/

theorem checkDescriptionTypes_usesOnly (registry : Registry) (uri : String)
    (root : Element) :
    (checkDescriptionTypes registry uri root).UsesOnly [.daptMetadataDesctypeValidity] := by
  rw [checkDescriptionTypes]
  dsimp only
  split
  · split
    · exact remark_usesOnly (by decide)
    · exact remark_usesOnly (by decide)
  · exact forEach_usesOnly fun _ => against_usesOnly (by decide)

def contentCodes : List Code := [
  .daptMetadataScriptRepresents, .daptMetadataRepresents, .daptMetadataContentDescriptor]

theorem scriptDescriptors_usesOnly (registry : Registry) (root : Element) :
    (scriptDescriptors registry root).1.UsesOnly contentCodes := by
  rw [scriptDescriptors]
  dsimp only
  split
  · exact against_usesOnly (by decide)
  · exact forEach_usesOnly fun _ => against_usesOnly (by decide)

theorem checkRepresents_usesOnly (registry : Registry) (uri : String)
    (accepted : List String) (element : Element) :
    (checkRepresents registry uri accepted element).UsesOnly contentCodes := by
  rw [checkRepresents]
  split
  · exact silent_usesOnly
  · refine UsesOnly.append (UsesOnly.append ?_ ?_) ?_
    · exact (against_usesOnly (by decide)).when _
    · exact (against_usesOnly (by decide)).when _
    · exact (against_usesOnly (by decide)).when _

mutual

theorem checkComputed_usesOnly (registry : Registry) (uri inherited : String) :
    ∀ element, (checkComputed registry uri inherited element).UsesOnly contentCodes
  | ⟨_, _, children, _, _⟩ => by
      rw [checkComputed]
      exact ((against_usesOnly (by decide)).when _).append
        (checkComputedOfAll_usesOnly registry uri _ children)

theorem checkComputedOfAll_usesOnly (registry : Registry) (uri inherited : String) :
    ∀ elements,
      (checkComputedOfAll registry uri inherited elements).UsesOnly contentCodes
  | [] => silent_usesOnly
  | first :: rest => by
      rw [checkComputedOfAll]
      split
      · exact (checkComputed_usesOnly registry uri inherited first).append
          (checkComputedOfAll_usesOnly registry uri inherited rest)
      · exact checkComputedOfAll_usesOnly registry uri inherited rest

end

theorem checkContentDescriptors_usesOnly (registry : Registry) (uri : String)
    (root : Element) :
    (checkContentDescriptors registry uri root).UsesOnly contentCodes := by
  refine UsesOnly.append (UsesOnly.append ?_ ?_) ?_
  · exact scriptDescriptors_usesOnly registry root
  · exact forEach_usesOnly fun element => checkRepresents_usesOnly registry uri _ element
  · exact checkComputed_usesOnly registry uri "" root

/-! ## Content of captions -/

theorem checkHasId_usesOnly (element : Element) :
    (checkHasId element).UsesOnly [.ebuttdPXmlIdConstraint] :=
  (against_usesOnly (by decide)).when _

theorem checkNoLooseText_usesOnly (element : Element) :
    (checkNoLooseText element).UsesOnly [.bbcTextSpanConstraint] :=
  (against_usesOnly (by decide)).when _

theorem checkLineBreaks_usesOnly (uri : String) (element : Element) :
    (checkLineBreaks uri element).UsesOnly [.ttmlElementBr] :=
  (remark_usesOnly (by decide)).when _

theorem checkUntimed_usesOnly (element : Element) :
    (checkUntimed element).UsesOnly [.ebuttdTimingAttributeConstraint] :=
  (against_usesOnly (by decide)).when _

theorem countDivisions_usesOnly (tag : String) (element : Element) :
    (countDivisions tag element).UsesOnly
      [.ebuttdEmptyBodyConstraint, .ebuttdNestedDivConstraint] :=
  ((against_usesOnly (by decide)).when _).append
    ((against_usesOnly (by decide)).when _)

theorem countSpans_usesOnly (textRequired nestingPermitted : Bool) (tag : String)
    (element : Element) :
    (countSpans textRequired nestingPermitted tag element).UsesOnly
      [.bbcTextSpanConstraint, .ebuttdNestedSpanConstraint] :=
  ((against_usesOnly (by decide)).when _).append
    ((against_usesOnly (by decide)).when _)

end TimedText.Check
