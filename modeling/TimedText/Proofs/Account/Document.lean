import TimedText.Check.Bytes
import TimedText.Check.Content
import TimedText.Check.Definition
import TimedText.Check.Head
import TimedText.Check.Identifier
import TimedText.Check.Parameter
import TimedText.Check.Pruning
import TimedText.Check.Script
import TimedText.Proofs.Account
/-!
The accounts of the checks that look at the bytes of a document, at its ids, at
its parameters, at its head, at its elements by themselves and at the metadata
of scripts. Every lemma names what its check may charge a document with.
-/

namespace TimedText.Check

open Verdict

/-! ## Bytes -/

def byteCharges : List Charge := defects [
  .preParseNullBytes, .preParseEncoding, .preParseByteOrderMark,
  .preParseByteOrderMarkCorrupt, .xmlDocumentValidity, .xmlEncodingDecl,
  .xmlEntityDecl]

private theorem goOn_accounts {verdict : Verdict}
    (accounts : verdict.Accounts byteCharges) (bytes : Text.Bytes) :
    (⟨.ok (verdict.valid, bytes), verdict.findings⟩ : Attempt Mended).Accounts
      byteCharges true Prod.fst where
  agrees := by
    intro mended gives
    cases gives
    exact accounts.agrees
  within := accounts.within

private theorem checkNullBytes_accounts (bytes : Text.Bytes) :
    (checkNullBytes bytes).Accounts byteCharges true Prod.fst := by
  rw [checkNullBytes]
  cases bytes.findIdx? (· == 0) with
  | none => exact goOn_accounts (remark_accounts rfl) bytes
  | some first => exact goOn_accounts (fail_accounts (by decide)) _

private theorem checkEncoding_accounts (bytes : Text.Bytes) :
    (checkEncoding bytes).Accounts byteCharges true Prod.fst := by
  rw [checkEncoding]
  split
  · apply Attempt.Accounts.bind
      (Attempt.note_accounts (Log.within_fail (by decide)))
    intro _
    apply Attempt.Accounts.bind (Attempt.ofExcept_accounts _)
    intro mended
    exact Attempt.pure_accounts rfl
  · cases Text.Utf8.decode bytes with
    | error defect => exact goOn_accounts (fail_accounts (by decide)) _
    | ok characters => exact goOn_accounts (remark_accounts rfl) bytes

private theorem checkByteOrderMark_accounts (bytes : Text.Bytes) :
    (checkByteOrderMark bytes).Accounts byteCharges true Prod.fst := by
  rw [checkByteOrderMark]
  dsimp only
  split
  · exact goOn_accounts (fail_accounts (by decide)) _
  · apply Attempt.Accounts.bind
      (Attempt.note_accounts (Log.within_fail (by decide)))
    intro _
    split
    · exact Attempt.pure_accounts rfl
    · exact Attempt.stop_accounts _
  · split
    · exact goOn_accounts (fail_accounts (by decide)) _
    · exact goOn_accounts (remark_accounts rfl) bytes

private theorem checkDeclaration_accounts (declaration : Option Markup.Declaration) :
    (checkDeclaration declaration).Accounts byteCharges := by
  unfold checkDeclaration
  split
  · exact remark_accounts rfl
  · exact remark_accounts rfl
  · split
    · exact remark_accounts rfl
    · exact fail_accounts (by decide)

private theorem checkEntities_accounts (entities : List String) :
    (checkEntities entities).Accounts byteCharges := by
  rw [checkEntities]
  split
  · exact remark_accounts rfl
  · exact fail_accounts (by decide)

private theorem checkStructure_accounts (bytes : Text.Bytes) :
    (checkStructure bytes).Accounts byteCharges true Prod.fst := by
  rw [checkStructure]
  refine goOn_accounts (Accounts.append (Accounts.append ?_ ?_) ?_) bytes
  · split
    · exact silent_accounts
    · exact fail_accounts (by decide)
  · exact checkDeclaration_accounts _
  · exact checkEntities_accounts _

theorem ByteCheck.run_accounts (check : ByteCheck) (bytes : Text.Bytes) :
    (check.run bytes).Accounts byteCharges true Prod.fst := by
  cases check with
  | byteOrderMark => exact checkByteOrderMark_accounts bytes
  | encoding => exact checkEncoding_accounts bytes
  | nullBytes => exact checkNullBytes_accounts bytes
  | markup => exact checkStructure_accounts bytes

/-! ## Identifiers -/

private theorem checkUnique_accounts (ids : Catalogue (List String)) :
    (checkUnique ids).Accounts (defects [.xmlIdUnique]) := by
  rw [checkUnique]
  dsimp only
  split
  · exact remark_accounts rfl
  · exact forEach_accounts fun _ => fail_accounts (by decide)

theorem checkIds_sound (root : Element) :
    (checkIds root).Sound (defects [.xmlIdUnique]) := by
  apply Run.Accounts.bind (Run.change_accounts _)
  intro _
  exact Run.judge_sound (checkUnique_accounts _)

theorem checkUnqualifiedIds_accounts (root : Element) :
    (checkUnqualifiedIds root).Accounts [] :=
  (remark_accounts rfl).when _

theorem checkHasId_accounts (element : Element) :
    (checkHasId element).Accounts (defects [.ebuttdPXmlIdConstraint]) :=
  (fail_accounts (by decide)).when _

def referenceCharges : List Charge :=
  defects [.ttmlIdrefElementApplicability, .ttmlIdrefEmpty, .ttmlIdrefTooMany]

private theorem checkTarget_accounts (targets : Catalogue String) (kind : ReferenceKind)
    (location reference : String) :
    (checkTarget targets kind location reference).Accounts referenceCharges := by
  rw [checkTarget]
  split
  · exact silent_accounts
  · exact (fail_accounts (by decide)).when _

private theorem checkReferences_accounts (targets : Catalogue String) (element : Element)
    (kind : ReferenceKind) :
    (checkReferences targets element kind).Accounts referenceCharges := by
  rw [checkReferences]
  split
  · exact silent_accounts
  · dsimp only
    split
    · exact fail_accounts (by decide)
    · exact ((fail_accounts (by decide)).when _).append
        (forEach_accounts fun reference => checkTarget_accounts targets kind _ reference)

theorem checkAllReferences_accounts (root : Element) :
    (checkAllReferences root).Accounts referenceCharges :=
  Accounts.affirm (forEach_accounts fun element => forEach_accounts fun kind =>
    checkReferences_accounts _ element kind) rfl

/-! ## Parameters -/

private theorem checkAbsent_accounts {charges : List Charge} {code : Code}
    (known : (.fail, code) ∈ charges) (required : Bool) (location name : String) :
    (checkAbsent required code location name).Accounts charges := by
  rw [checkAbsent]
  split
  · exact fail_accounts known
  · exact remark_accounts rfl

theorem checkRoot_accounts (root : Element) :
    (checkRoot root).Accounts (defects [.xmlTtNamespace, .xmlRootElement]) := by
  rw [checkRoot]
  apply Accounts.append
  · split
    · exact remark_accounts rfl
    · exact fail_accounts (by decide)
  · split
    · exact remark_accounts rfl
    · exact fail_accounts (by decide)

theorem fileRoot_sound (root : Element) :
    (fileRoot root).Sound (defects [.xmlTtNamespace, .xmlRootElement]) := by
  apply Run.Accounts.bind (Run.change_accounts _)
  intro _
  exact Run.judge_sound (checkRoot_accounts root)

theorem checkTimeBase_accounts (allowed : List String) (required : Bool)
    (uri : String) (root : Element) :
    (checkTimeBase allowed required uri root).Accounts
      (defects [.ebuttdParameterTimeBase]) := by
  rw [checkTimeBase]
  dsimp only
  split
  · exact checkAbsent_accounts (by decide) _ _ _
  · split
    · exact remark_accounts rfl
    · exact fail_accounts (by decide)

theorem checkActiveArea_accounts (required : Bool) (root : Element) :
    (checkActiveArea required root).Accounts (defects [.imscParameterActiveArea]) := by
  unfold checkActiveArea
  dsimp only
  split
  · exact checkAbsent_accounts (by decide) _ _ _
  · split
    · exact fail_accounts (by decide)
    · split
      · exact fail_accounts (by decide)
      · exact remark_accounts rfl

private theorem checkCellCounts_accounts (location value : String) :
    (checkCellCounts location value).Accounts
      (defects [.ttmlParameterCellResolution]) := by
  rw [checkCellCounts]
  split
  · exact fail_accounts (by decide)
  · exact (fail_accounts (by decide)).when _

private theorem checkCellResolution_accounts (required : Bool) (uri : String)
    (root : Element) :
    (checkCellResolution required uri root).Accounts
      (defects [.ttmlParameterCellResolution]) := by
  rw [checkCellResolution]
  apply Accounts.affirm _ rfl
  split
  · exact checkCellCounts_accounts _ _
  · exact (checkAbsent_accounts (by decide) _ _ _).append (remark_accounts rfl)

theorem fileCellResolution_sound (required : Bool) (root : Element) :
    (fileCellResolution required root).Sound
      (defects [.ttmlParameterCellResolution]) := by
  apply Run.Accounts.bind Run.context_accounts
  intro context
  apply Run.Accounts.bind (Run.change_accounts _)
  intro _
  exact Run.judge_sound (checkCellResolution_accounts required context.uri root)

theorem checkContentProfiles_accounts (accepted denied : List String)
    (required : Bool) (uri : String) (root : Element) :
    (checkContentProfiles accepted denied required uri root).Accounts
      (defects [.ttmlParameterContentProfiles]) := by
  rw [checkContentProfiles]
  dsimp only
  split
  · exact checkAbsent_accounts (by decide) _ _ _
  · split
    · exact fail_accounts (by decide)
    · refine Accounts.affirm (Accounts.append ?_ ?_) rfl
      · exact forEach_accounts fun _ => fail_accounts (by decide)
      · exact (fail_accounts (by decide)).when _

/-! ## Head -/

theorem checkCopyright_accounts (required : Bool) (uri : String) (head : Element) :
    (checkCopyright required uri head).Accounts
      (defects [.ttmlMetadataCopyright]) := by
  unfold checkCopyright
  dsimp only
  split
  · split
    · exact fail_accounts (by decide)
    · exact remark_accounts rfl
  · exact remark_accounts rfl
  · exact remark_accounts rfl

private theorem checkAgent_accounts (agent : Element) :
    (checkAgent agent).Accounts (defects [.ttmlMetadataActorReference]) := by
  rw [checkAgent]
  split
  · exact silent_accounts
  · exact forEach_accounts fun _ => fail_accounts (by decide)

theorem checkActors_accounts (head : Element) :
    (checkActors head).Accounts (defects [.ttmlMetadataActorReference]) :=
  Accounts.affirm (forEach_accounts checkAgent_accounts) rfl

/-! ## Definitions -/

def DefinitionKind.defects (kind : DefinitionKind) : List Charge := TimedText.defects [
  kind.containerCode, kind.countCode, kind.itemCode, kind.absenceCode,
  .ttmlAttributeStylingAttribute]

def DefinitionKind.charges (kind : DefinitionKind) : List Charge :=
  (.skip, kind.itemCode) :: kind.defects

private theorem checkStyleValues_accounts (uri : String) (element : Element) :
    (checkStyleValues uri element).Accounts
      (defects [.ttmlAttributeStylingAttribute]) := by
  apply forEach_accounts
  intro property
  dsimp only
  split
  · exact silent_accounts
  · exact (fail_accounts (by decide)).when _

private theorem checkItem_accounts (kind : DefinitionKind) (uri : String) (item : Element) :
    (checkItem kind uri item).Accounts kind.defects := by
  refine Accounts.append (Accounts.append ?_ ?_) ?_
  · exact (fail_accounts (by simp [DefinitionKind.defects, defects])).when _
  · exact (remark_accounts rfl).when _
  · exact (checkStyleValues_accounts uri item).mono (by simp [DefinitionKind.defects, defects])

theorem checkContainer_accounts (kind : DefinitionKind) (uri : String)
    (container : Element) :
    (checkContainer kind uri container).1.Accounts kind.defects := by
  refine Accounts.affirm (Accounts.append ?_ ?_) rfl
  · exact forEach_accounts fun item => checkItem_accounts kind uri item
  · exact (fail_accounts (by simp [DefinitionKind.defects, defects])).when _

private theorem checkDefinitions_accounts (kind : DefinitionKind) (uri : String)
    (head : Element) : (checkDefinitions kind uri head).1.Accounts kind.charges := by
  rw [checkDefinitions]
  dsimp only
  have failed (code : Code) (location message : String)
      (known : (.fail, code) ∈ kind.defects) :
      (against (.fail code location message)).Accounts kind.charges :=
    fail_accounts (List.mem_cons_of_mem _ known)
  have skipped (location message : String) :
      (against (.skip kind.itemCode location message)).Accounts kind.charges :=
    skip_accounts List.mem_cons_self
  split
  · exact (remark_accounts rfl).append
      ((checkContainer_accounts kind uri _).mono (List.subset_cons_self _ _))
  · exact (failed _ _ _ (by simp [DefinitionKind.defects, defects])).append (skipped _ _)
  · exact (failed _ _ _ (by simp [DefinitionKind.defects, defects])).append (skipped _ _)

theorem fileStyles_sound (head : Element) :
    (fileStyles head).Sound styleKind.charges := by
  apply Run.Accounts.bind Run.context_accounts
  intro context
  apply Run.Accounts.bind (Run.change_accounts _)
  intro _
  exact Run.judge_sound (checkDefinitions_accounts styleKind context.uri head)

theorem fileRegions_sound (head : Element) :
    (fileRegions head).Sound regionKind.charges := by
  apply Run.Accounts.bind Run.context_accounts
  intro context
  apply Run.Accounts.bind (Run.change_accounts _)
  intro _
  exact Run.judge_sound (checkDefinitions_accounts regionKind context.uri head)

/-! ## Content -/

theorem checkUntimed_accounts (element : Element) :
    (checkUntimed element).Accounts
      (defects [.ebuttdTimingAttributeConstraint]) :=
  (fail_accounts (by decide)).when _

theorem checkNotNested_accounts (enclosing : Timing.Presence) (element : Element) :
    (checkNotNested enclosing element).Accounts
      (defects [.ebuttdNestedTimingConstraint]) :=
  (fail_accounts (by decide)).when _

theorem checkNoLooseText_accounts (element : Element) :
    (checkNoLooseText element).Accounts (defects [.bbcTextSpanConstraint]) :=
  (fail_accounts (by decide)).when _

theorem checkLineBreaks_accounts (uri : String) (element : Element) :
    (checkLineBreaks uri element).Accounts [] :=
  (remark_accounts rfl).when _

/-! ## Vocabulary -/

private theorem pruningFindings_isClean (removals : List Removal) :
    Log.isClean (pruningFindings removals) = true := by
  apply List.all_eq_true.mpr
  intro finding member
  rcases List.mem_map.mp member with ⟨uri, _, rfl⟩
  rfl

theorem checkVocabulary_sound (root : Element) :
    (checkVocabulary root).Sound [] := by
  have clean := pruningFindings_isClean (prune root).2
  have ends : (do Run.note (pruningFindings (prune root).2); return true : Run Bool).Sound
      [] := by
    apply Run.Accounts.bind (Run.note_accounts (Log.within_of_isClean clean []))
    intro _
    exact Run.pure_accounts (by simp [clean])
  rw [checkVocabulary]
  dsimp only
  split
  · exact Run.Accounts.bind (Run.change_accounts _) fun _ => ends
  · exact ends

/-! ## Scripts -/

theorem checkDescriptionTypes_accounts (registry : Registry) (uri : String)
    (root : Element) :
    (checkDescriptionTypes registry uri root).Accounts
      (defects [.daptMetadataDesctypeValidity]) := by
  rw [checkDescriptionTypes]
  dsimp only
  split
  · split
    · exact remark_accounts rfl
    · exact remark_accounts rfl
  · exact forEach_accounts fun _ => fail_accounts (by decide)

def contentCharges : List Charge := defects [
  .daptMetadataScriptRepresents, .daptMetadataRepresents,
  .daptMetadataContentDescriptor]

private theorem scriptDescriptors_accounts (registry : Registry) (root : Element) :
    (scriptDescriptors registry root).1.Accounts contentCharges := by
  rw [scriptDescriptors]
  dsimp only
  split
  · exact fail_accounts (by decide)
  · exact forEach_accounts fun _ => fail_accounts (by decide)

private theorem checkRepresents_accounts (registry : Registry) (uri : String)
    (accepted : List String) (element : Element) :
    (checkRepresents registry uri accepted element).Accounts contentCharges := by
  rw [checkRepresents]
  split
  · exact silent_accounts
  · refine Accounts.append (Accounts.append ?_ ?_) ?_
    · exact (fail_accounts (by decide)).when _
    · exact (fail_accounts (by decide)).when _
    · exact (fail_accounts (by decide)).when _

mutual

private theorem checkComputed_accounts (registry : Registry) (uri inherited : String) :
    ∀ element, (checkComputed registry uri inherited element).Accounts contentCharges
  | ⟨_, _, children, _, _⟩ => by
      rw [checkComputed]
      exact ((fail_accounts (by decide)).when _).append
        (checkComputedOfAll_accounts registry uri _ children)

private theorem checkComputedOfAll_accounts (registry : Registry) (uri inherited : String) :
    ∀ elements,
      (checkComputedOfAll registry uri inherited elements).Accounts contentCharges
  | [] => silent_accounts
  | first :: rest => by
      rw [checkComputedOfAll]
      split
      · exact (checkComputed_accounts registry uri inherited first).append
          (checkComputedOfAll_accounts registry uri inherited rest)
      · exact checkComputedOfAll_accounts registry uri inherited rest

end

theorem checkContentDescriptors_accounts (registry : Registry) (uri : String)
    (root : Element) :
    (checkContentDescriptors registry uri root).Accounts contentCharges := by
  refine Accounts.append (Accounts.append ?_ ?_) ?_
  · exact scriptDescriptors_accounts registry root
  · exact forEach_accounts fun element => checkRepresents_accounts registry uri _ element
  · exact checkComputed_accounts registry uri "" root

end TimedText.Check
