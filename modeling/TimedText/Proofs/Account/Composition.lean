import TimedText.Profile.Captions
import TimedText.Profile.Scripts
import TimedText.Proofs.Account.Document
import TimedText.Proofs.Account.Presentation
import TimedText.Proofs.Account.Timing
/-!
The accounts of composite checks, given those of the checks that they run inside
the elements they look for, and with that the accounts of all checks of both
profiles.
-/

namespace TimedText

open Verdict Timing

namespace Check

/-! ## Composite checks -/

private theorem checkSchema_accounts (name : String) (schema : Schema) (root : Element) :
    (checkSchema name schema root).Accounts (defects [.xmlXsd]) := by
  rw [checkSchema]
  split
  · exact remark_accounts rfl
  · exact fail_accounts (by decide)

section

variable {charges : List Charge} {inner : Element → Run Bool}

def headCharges : List Charge := defects [.ttmlElementHead, .ebuttdHeadElementConstraint]

private theorem checkHead_sound (known : headCharges ⊆ charges)
    (sound : ∀ element, (inner element).Sound charges) (root : Element) :
    (checkHead inner root).Sound charges := by
  apply Run.Accounts.bind Run.context_accounts
  intro context
  dsimp only
  split
  · apply Run.Accounts.bind (sound _)
    intro valid
    exact Run.affirmed_accounts rfl
  · apply Run.judge_sound
    split
    · exact fail_accounts (known (by decide))
    · exact fail_accounts (known (by decide))

private theorem checkBody_sound (known : (.fail, .ttmlElementBody) ∈ charges)
    (sound : ∀ element, (inner element).Sound charges) (root : Element) :
    (checkBody inner root).Sound charges := by
  apply Run.Accounts.bind Run.context_accounts
  intro context
  dsimp only
  split
  · apply Run.Accounts.bind ((sound _).inside _)
    intro valid
    exact Run.affirmed_accounts rfl
  · exact Run.judge_sound (fail_accounts known)

def divisionCharges : List Charge :=
  defects [.ebuttdEmptyBodyConstraint, .ebuttdNestedDivConstraint]

private theorem countDivisions_accounts (tag : String) (element : Element) :
    (countDivisions tag element).Accounts divisionCharges :=
  ((fail_accounts (by decide)).when _).append ((fail_accounts (by decide)).when _)

mutual

private theorem checkDivisions_sound (known : divisionCharges ⊆ charges)
    (sound : ∀ element, (inner element).Sound charges) (nested : Bool) :
    ∀ element, (checkDivisions nested inner element).Sound charges
  | ⟨tag, attributes, children, text, tail⟩ => by
      rw [checkDivisions]
      apply Run.Accounts.bind Run.context_accounts
      intro context
      apply Run.Accounts.bind
        (Run.judge_sound ((countDivisions_accounts _ _).mono known))
      intro counted
      apply Run.Accounts.bind
        ((checkEachDivision_sound known sound nested _ children).after counted)
      intro checked
      exact Run.pure_accounts rfl

private theorem checkEachDivision_sound (known : divisionCharges ⊆ charges)
    (sound : ∀ element, (inner element).Sound charges) (nested : Bool)
    (division : String) :
    ∀ elements, (checkEachDivision nested inner division elements).Sound charges
  | [] => by
      rw [checkEachDivision]
      exact Run.pure_accounts rfl
  | first :: rest => by
      rw [checkEachDivision]
      split
      · refine Run.Accounts.bind (Run.Accounts.inside ?_ _ : Run.Sound charges _) ?_
        · apply (checkDivisions_sound known sound nested first).choice
          intro within
          apply Run.Accounts.bind ((sound first).after _)
          intro own
          exact Run.pure_accounts rfl
        · intro valid
          apply Run.Accounts.bind
            ((checkEachDivision_sound known sound nested division rest).after _)
          intro others
          exact Run.pure_accounts rfl
      · exact checkEachDivision_sound known sound nested division rest

end

private theorem checkInside_sound (sound : ∀ element, (inner element).Sound charges)
    (elements : List Element) : (checkInside inner elements).Sound charges := by
  induction elements with
  | nil => exact Run.pure_accounts rfl
  | cons first rest induction =>
      apply Run.Accounts.bind ((sound first).inside _)
      intro valid
      apply Run.Accounts.bind (induction.after _)
      intro others
      exact Run.pure_accounts rfl

private theorem checkParagraphs_sound (known : (.fail, .ebuttdEmptyDivConstraint) ∈ charges)
    (sound : ∀ element, (inner element).Sound charges) (element : Element) :
    (checkParagraphs inner element).Sound charges := by
  apply Run.Accounts.bind Run.context_accounts
  intro context
  apply Run.Accounts.bind (Run.judge_sound ((fail_accounts known).when _))
  intro counted
  apply Run.Accounts.bind ((checkInside_sound sound _).after _)
  intro checked
  exact Run.pure_accounts rfl

def spanCharges : List Charge := defects [.bbcTextSpanConstraint, .ebuttdNestedSpanConstraint]

private theorem countSpans_accounts (textRequired nestingPermitted : Bool) (tag : String)
    (element : Element) :
    (countSpans textRequired nestingPermitted tag element).Accounts spanCharges :=
  ((fail_accounts (by decide)).when _).append ((fail_accounts (by decide)).when _)

mutual

private theorem checkSpans_sound (known : spanCharges ⊆ charges)
    (sound : ∀ element, (inner element).Sound charges)
    (textRequired nestingPermitted : Bool) :
    ∀ element,
      (checkSpans textRequired nestingPermitted inner element).Sound charges
  | ⟨tag, attributes, children, text, tail⟩ => by
      rw [checkSpans]
      apply Run.Accounts.bind Run.context_accounts
      intro context
      apply Run.Accounts.bind
        (Run.judge_sound ((countSpans_accounts _ _ _ _).mono known))
      intro counted
      apply Run.Accounts.bind (((checkEachSpan_sound known sound textRequired
        nestingPermitted _ children).inside _).after counted)
      intro checked
      exact Run.pure_accounts rfl

private theorem checkEachSpan_sound (known : spanCharges ⊆ charges)
    (sound : ∀ element, (inner element).Sound charges)
    (textRequired nestingPermitted : Bool) (span : String) :
    ∀ elements,
      (checkEachSpan textRequired nestingPermitted inner span elements).Sound charges
  | [] => by
      rw [checkEachSpan]
      exact Run.pure_accounts rfl
  | first :: rest => by
      rw [checkEachSpan]
      split
      · apply Run.Accounts.bind (sound first)
        intro own
        apply Run.Accounts.bind
          ((checkSpans_sound known sound textRequired nestingPermitted first).after _)
        intro within
        apply Run.Accounts.bind ((checkEachSpan_sound known sound textRequired
          nestingPermitted span rest).after _)
        intro others
        exact Run.pure_accounts rfl
      · exact checkEachSpan_sound known sound textRequired nestingPermitted span rest

end

end

/-! ## Checks in turn -/

private theorem judgeBy_sound {charges : List Charge} {rule : String → Verdict}
    (each : ∀ uri, (rule uri).Accounts charges) : (judgeBy rule).Sound charges := by
  apply Run.Accounts.bind Run.context_accounts
  intro context
  exact Run.judge_sound (each context.uri)

mutual

/-- What a check, or a check that it runs, may charge a document with. -/
def ElementCheck.charges : ElementCheck → List Charge
  | .uniqueIds => defects [.xmlIdUnique]
  | .unqualifiedIds | .lineBreaks | .vocabulary | .custom _ _ => []
  | .hasId => defects [.ebuttdPXmlIdConstraint]
  | .references => referenceCharges
  | .root => defects [.xmlTtNamespace, .xmlRootElement]
  | .timeBase _ _ => defects [.ebuttdParameterTimeBase]
  | .activeArea _ => defects [.imscParameterActiveArea]
  | .cellResolution _ => defects [.ttmlParameterCellResolution]
  | .contentProfiles _ _ _ => defects [.ttmlParameterContentProfiles]
  | .copyright _ => defects [.ttmlMetadataCopyright]
  | .actors => defects [.ttmlMetadataActorReference]
  | .styling => styleKind.charges
  | .layout => regionKind.charges
  | .styleReferences => styleCharges false
  | .inlineStyles => defects [.ebuttdInlineStylingConstraint]
  | .regionReferences => regionCharges false
  | .untimed => defects [.ebuttdTimingAttributeConstraint]
  | .notNested => defects [.ebuttdNestedTimingConstraint]
  | .noLooseText => defects [.bbcTextSpanConstraint]
  | .descriptionTypes _ => defects [.daptMetadataDesctypeValidity]
  | .contentDescriptors _ => contentCharges
  | .captionTiming _ => captionTimingCharges
  | .scriptTiming _ => scriptTimingCharges false
  | .schema _ _ => defects [.xmlXsd]
  | .head inner => headCharges ++ chargesOfAll inner
  | .body inner => (.fail, .ttmlElementBody) :: chargesOfAll inner
  | .divisions inner _ => divisionCharges ++ chargesOfAll inner
  | .paragraphs inner => (.fail, .ebuttdEmptyDivConstraint) :: chargesOfAll inner
  | .spans inner _ _ => spanCharges ++ chargesOfAll inner

def chargesOfAll : List ElementCheck → List Charge
  | [] => []
  | first :: rest => first.charges ++ chargesOfAll rest

end

mutual

/-- Whether a check and the checks that it runs are all given by name, and none
of them by what it does. -/
def ElementCheck.isNamed : ElementCheck → Bool
  | .custom _ _ => false
  | .head inner | .body inner | .divisions inner _ | .paragraphs inner
  | .spans inner _ _ => areNamed inner
  | _ => true

def areNamed : List ElementCheck → Bool
  | [] => true
  | first :: rest => first.isNamed && areNamed rest

end

private theorem chargesOfAll_append (first second : List ElementCheck) :
    chargesOfAll (first ++ second) = chargesOfAll first ++ chargesOfAll second := by
  induction first with
  | nil => rw [List.nil_append, chargesOfAll, List.nil_append]
  | cons check rest induction =>
      rw [List.cons_append, chargesOfAll, chargesOfAll, induction, List.append_assoc]

theorem chargesOfAll_schema_subset (before after : List ElementCheck) (name : String)
    (schema : Option Schema) :
    chargesOfAll (before ++ ((schema.map (ElementCheck.schema name)).toList ++ after)) ⊆
      chargesOfAll (before ++ ([.schema name fun _ => none] ++ after)) := by
  intro charge member
  simp only [chargesOfAll_append, List.mem_append] at member ⊢
  cases schema with
  | none =>
      rcases member with first | nothing | last
      · exact .inl first
      · cases nothing
      · exact .inr (.inr last)
  | some schema => exact member

mutual

/-- Every check tells whether any of its findings counts. -/
theorem ElementCheck.run_sound : ∀ check : ElementCheck, check.isNamed = true →
    ∀ element, (check.run element).Sound check.charges
  | .uniqueIds, _, element => by
      rw [ElementCheck.run]
      exact checkIds_sound element
  | .unqualifiedIds, _, element => by
      rw [ElementCheck.run]
      exact Run.judge_sound (checkUnqualifiedIds_accounts element)
  | .hasId, _, element => by
      rw [ElementCheck.run]
      exact Run.judge_sound (checkHasId_accounts element)
  | .references, _, element => by
      rw [ElementCheck.run]
      exact Run.judge_sound (checkAllReferences_accounts element)
  | .root, _, element => by
      rw [ElementCheck.run]
      exact fileRoot_sound element
  | .timeBase allowed required, _, element => by
      rw [ElementCheck.run]
      exact judgeBy_sound fun uri => checkTimeBase_accounts allowed required uri element
  | .activeArea required, _, element => by
      rw [ElementCheck.run]
      exact Run.judge_sound (checkActiveArea_accounts required element)
  | .cellResolution required, _, element => by
      rw [ElementCheck.run]
      exact fileCellResolution_sound required element
  | .contentProfiles accepted denied required, _, element => by
      rw [ElementCheck.run]
      exact judgeBy_sound fun uri =>
        checkContentProfiles_accounts accepted denied required uri element
  | .copyright required, _, element => by
      rw [ElementCheck.run]
      exact judgeBy_sound fun uri => checkCopyright_accounts required uri element
  | .actors, _, element => by
      rw [ElementCheck.run]
      exact Run.judge_sound (checkActors_accounts element)
  | .styling, _, element => by
      rw [ElementCheck.run]
      exact fileStyles_sound element
  | .layout, _, element => by
      rw [ElementCheck.run]
      exact fileRegions_sound element
  | .styleReferences, _, element => by
      rw [ElementCheck.run]
      exact checkStyleReferences_sound element
  | .inlineStyles, _, element => by
      rw [ElementCheck.run]
      exact judgeBy_sound fun uri => checkInlineStyles_accounts uri element
  | .regionReferences, _, element => by
      rw [ElementCheck.run]
      exact checkRegionReferences_sound element
  | .untimed, _, element => by
      rw [ElementCheck.run]
      exact Run.judge_sound (checkUntimed_accounts element)
  | .notNested, _, element => by
      rw [ElementCheck.run]
      exact Run.Accounts.bind Run.context_accounts fun context =>
        Run.judge_sound (checkNotNested_accounts context.enclosing element)
  | .noLooseText, _, element => by
      rw [ElementCheck.run]
      exact Run.judge_sound (checkNoLooseText_accounts element)
  | .lineBreaks, _, element => by
      rw [ElementCheck.run]
      exact judgeBy_sound fun uri => checkLineBreaks_accounts uri element
  | .vocabulary, _, element => by
      rw [ElementCheck.run]
      exact checkVocabulary_sound element
  | .descriptionTypes registry, _, element => by
      rw [ElementCheck.run]
      exact judgeBy_sound fun uri => checkDescriptionTypes_accounts registry uri element
  | .contentDescriptors registry, _, element => by
      rw [ElementCheck.run]
      exact judgeBy_sound fun uri => checkContentDescriptors_accounts registry uri element
  | .captionTiming segment, _, element => by
      rw [ElementCheck.run]
      exact Run.Accounts.bind Run.context_accounts fun context =>
        Run.judge_sound (checkCaptionTiming_accounts segment context element)
  | .scriptTiming segment, _, element => by
      rw [ElementCheck.run]
      exact judgeBy_sound fun uri =>
        (checkScriptTiming_accounts segment uri element).mono (omitting_subset _ _ _)
  | .schema name schema, _, element => by
      rw [ElementCheck.run]
      exact Run.judge_sound (checkSchema_accounts name schema element)
  | .head inner, named, element => by
      rw [ElementCheck.run]
      exact checkHead_sound (List.subset_append_left _ _)
        (fun head => (runAll_sound inner named head).mono
          (List.subset_append_right _ _)) element
  | .body inner, named, element => by
      rw [ElementCheck.run]
      exact checkBody_sound List.mem_cons_self
        (fun body => (runAll_sound inner named body).mono
          (List.subset_cons_self _ _)) element
  | .divisions inner nested, named, element => by
      rw [ElementCheck.run]
      exact checkDivisions_sound (List.subset_append_left _ _)
        (fun division => (runAll_sound inner named division).mono
          (List.subset_append_right _ _)) nested element
  | .paragraphs inner, named, element => by
      rw [ElementCheck.run]
      exact checkParagraphs_sound List.mem_cons_self
        (fun paragraph => (runAll_sound inner named paragraph).mono
          (List.subset_cons_self _ _)) element
  | .spans inner textRequired nestingPermitted, named, element => by
      rw [ElementCheck.run]
      exact checkSpans_sound (List.subset_append_left _ _)
        (fun span => (runAll_sound inner named span).mono
          (List.subset_append_right _ _)) textRequired nestingPermitted element

private theorem runAll_sound : ∀ checks : List ElementCheck, areNamed checks = true →
    ∀ element, (runAll checks element).Sound (chargesOfAll checks)
  | [], _, element => by
      rw [runAll]
      exact Run.pure_accounts rfl
  | first :: rest, named, element => by
      rw [areNamed, Bool.and_eq_true] at named
      rw [runAll, chargesOfAll]
      apply Run.Accounts.bind
        ((first.run_sound named.1 element).mono (List.subset_append_left _ _))
      intro valid
      apply Run.Accounts.bind (((runAll_sound rest named.2 element).mono
        (List.subset_append_right _ _)).after valid)
      intro others
      exact Run.pure_accounts rfl

end

end Check

end TimedText
