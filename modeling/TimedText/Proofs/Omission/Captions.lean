import TimedText.Proofs.Frame
import TimedText.Proofs.Omission
/-!
Omissions in captions. A rule is left out where styles or regions are not known,
and they are not known only because of a defect that was found when they should
have been filed. So in captions no omission stands without a defect.
-/

namespace TimedText

open Check Profile Timing

/-! ## Definitions -/

namespace Check

private theorem checkDefinitions_files (kind : DefinitionKind) (uri : String) (head : Element)
    (sound : ¬(checkDefinitions kind uri head).1.findings.Has .fail) :
    ¬(checkDefinitions kind uri head).1.findings.Has .skip ∧
      (checkDefinitions kind uri head).2.isSome = true := by
  revert sound
  rw [checkDefinitions]
  dsimp only
  split
  next container _ =>
    intro sound
    refine ⟨?_, rfl⟩
    have contained := (checkContainer_accounts kind uri container).within
    exact (Log.within_append (Log.within_of_isClean rfl _) contained).not_has_skip
      (defects_fail _)
  · exact fun sound => absurd (Log.has_of_fail List.mem_cons_self) sound
  · exact fun sound => absurd (Log.has_of_fail List.mem_cons_self) sound

/-- What comes of a run that files styles and regions and leaves nothing out,
unless it finds a defect. -/
private def Outcome.Files (outcome : Outcome Bool) : Prop :=
  ¬outcome.findings.Has .fail →
    ¬outcome.findings.Has .skip ∧ outcome.context.styles.isSome = true ∧
      outcome.context.regions.isSome = true

private theorem runAll_head_findings (head : Element) (context : Context) :
    (runAll [.copyright false, .styling, .layout] head context).findings =
      (checkCopyright false context.uri head).findings
        ++ (checkDefinitions styleKind context.uri head).1.findings
        ++ (checkDefinitions regionKind context.uri head).1.findings := by
  simp only [runAll, ElementCheck.run]
  change _ ++ ((_ ++ ((_ ++ ([] ++ [])) ++ [])) ++ []) = _
  simp only [List.append_nil, List.append_assoc]
  rfl

private theorem runAll_head_context (head : Element) (context : Context) :
    (runAll [.copyright false, .styling, .layout] head context).context =
      { context with
        styles := (checkDefinitions styleKind context.uri head).2.or context.styles
        regions := (checkDefinitions regionKind context.uri head).2.or context.regions
      } := by
  simp only [runAll, ElementCheck.run]
  rfl

private theorem runAll_head_files (head : Element) (context : Context) :
    (runAll [.copyright false, .styling, .layout] head context).Files := by
  intro sound
  have copyright := (checkCopyright_accounts false context.uri head).within.not_has_skip
    (defects_fail _)
  rw [runAll_head_findings, Log.has_append_iff, Log.has_append_iff, not_or, not_or]
    at sound
  rcases sound with ⟨⟨_, soundStyles⟩, soundRegions⟩
  rcases checkDefinitions_files _ _ _ soundStyles with ⟨unskippedStyles, styles⟩
  rcases checkDefinitions_files _ _ _ soundRegions with ⟨unskippedRegions, regions⟩
  rw [runAll_head_findings, runAll_head_context, Log.has_append_iff, Log.has_append_iff]
  refine ⟨?_, by simp [styles], by simp [regions]⟩
  rintro ((omitted | omitted) | omitted)
  · exact copyright omitted
  · exact unskippedStyles omitted
  · exact unskippedRegions omitted

private theorem Outcome.Files.extend {outcome : Outcome Bool} (files : outcome.Files)
    {more : Log} (clean : more.isClean = true) (result : Except Fault Bool) :
    Outcome.Files ⟨result, outcome.context, outcome.findings ++ more⟩ := by
  intro sound
  obtain ⟨unskipped, filed⟩ := files fun failed =>
    sound (Log.has_append_iff.mpr (.inl failed))
  refine ⟨?_, filed⟩
  intro omitted
  rcases Log.has_append_iff.mp omitted with omitted | omitted
  · exact unskipped omitted
  · exact (Log.within_of_isClean clean []).not_has_skip (by simp) omitted

private theorem affirmed_files {run : Run Bool} {context : Context}
    (files : (run context).Files) (code : Code) (location message : String) :
    Outcome.Files ((do
      let valid ← run
      if valid then Run.note [.pass code location message]
      return valid : Run Bool) context) := by
  cases gives : (run context).result with
  | error fault =>
      rw [Run.bind_of_error gives]
      exact files
  | ok valid =>
      rw [Run.bind_of_ok gives]
      cases valid with
      | false => exact files.extend rfl _
      | true => exact files.extend rfl _

private def captionHead : ElementCheck :=
  .head [.copyright false, .styling, .layout]

private theorem captionHead_files (root : Element) (context : Context) :
    (captionHead.run root context).Files := by
  rw [captionHead, ElementCheck.run, checkHead, Run.context_bind]
  dsimp only
  rcases root.childrenNamed (Name.qualified context.uri "head") with
    _ | ⟨head, _ | ⟨second, rest⟩⟩
  · exact fun sound => absurd (Log.has_of_fail List.mem_cons_self) sound
  · exact affirmed_files (runAll_head_files head context) _ _ _
  · exact fun sound => absurd (Log.has_of_fail List.mem_cons_self) sound

end Check

/-! ## Checks in turn -/

/-- A check that finds no defect prepares for those that follow; one that does is
what omissions come from. -/
private theorem runChecks_cons_caused {check : ElementCheck} {rest : List ElementCheck}
    {context : Context} {root : Element}
    (own : (check.run root context).findings.Caused)
    (others : ¬(check.run root context).findings.Has .fail →
      (runChecks { (check.run root context).context with replacement := none }
        ((check.run root context).context.replacement.getD root) rest).findings.Caused) :
    (runChecks context root (check :: rest)).findings.Caused := by
  rw [runChecks]
  by_cases failed : (check.run root context).findings.Has .fail
  · intro _
    apply Log.has_append_iff.mpr
    left
    split
    · exact failed
    · exact Log.has_append_iff.mpr (.inl failed)
  · apply Log.Caused.append _ (others failed)
    split
    · exact own
    · exact fun _ => Log.has_append_iff.mpr (.inr (Log.has_of_fail List.mem_cons_self))

private def captionFront (schema : Option Schema) : List ElementCheck :=
  [.unqualifiedIds]
    ++ (schema.map (ElementCheck.schema "EBU-TT-D")).toList
    ++ [.uniqueIds, .references, .root, .timeBase ["media"] true, .activeArea false,
      .cellResolution false]

private def captionTail (segment : Segment Float) : List ElementCheck :=
  [.styleReferences, .inlineStyles, .regionReferences, captionBody,
    .captionTiming segment]

private theorem captionChecks_eq (segment : Segment Float) (schema : Option Schema) :
    captionChecks segment schema
      = captionFront schema ++ (captionHead :: captionTail segment) := by
  cases schema <;> rfl

private theorem captionFront_not_has_skip (schema : Option Schema) (context : Context)
    (root : Element) :
    ¬(runChecks context root (captionFront schema)).findings.Has .skip :=
  runChecks_schema_not_has_skip [.unqualifiedIds] _ _ schema (by cases schema <;> rfl)
    (by decide) context root

private theorem styleReferences_not_has_skip (root : Element) {context : Context}
    (known : context.styles.isSome = true) :
    ¬(ElementCheck.styleReferences.run root context).findings.Has .skip := by
  have accounts := checkStyleReferences_accounts root context
  rw [known] at accounts
  rw [ElementCheck.run]
  exact accounts.within.not_has_skip (defects_fail _)

private theorem regionReferences_not_has_skip (root : Element) {context : Context}
    (known : context.regions.isSome = true) :
    ¬(ElementCheck.regionReferences.run root context).findings.Has .skip := by
  have accounts := checkRegionReferences_accounts root context
  rw [known] at accounts
  rw [ElementCheck.run]
  exact accounts.within.not_has_skip (defects_fail _)

private theorem inlineStyles_not_has_skip (root : Element) (context : Context) :
    ¬(ElementCheck.inlineStyles.run root context).findings.Has .skip := by
  have accounts := checkInlineStyles_accounts context.uri root
  rw [ElementCheck.run]
  exact accounts.within.not_has_skip (defects_fail _)

private theorem captionTail_caused (segment : Segment Float) (root : Element)
    {context : Context} (styles : context.styles.isSome = true)
    (regions : context.regions.isSome = true) :
    (runChecks context root (captionTail segment)).findings.Caused := by
  apply runChecks_cons_caused
  · exact Log.caused_of_not_has (styleReferences_not_has_skip root styles)
  intro _
  apply runChecks_cons_caused
  · exact Log.caused_of_not_has (inlineStyles_not_has_skip _ _)
  intro _
  apply runChecks_cons_caused
  · apply Log.caused_of_not_has
    apply regionReferences_not_has_skip
    rw [ElementCheck.run, ElementCheck.run]
    change (checkStyleReferences root context).context.regions.isSome = true
    rw [checkStyleReferences_keeps_regions root context]
    exact regions
  intro _
  have defective : ∀ charge ∈ chargesOfAll [captionBody, .captionTiming .whole],
      charge.1 = .fail := by
    decide
  apply Log.caused_of_not_has
  apply runChecks_not_has_skip rfl
  exact defective

private theorem captionBack_caused (segment : Segment Float) (context : Context)
    (root : Element) :
    (runChecks context root (captionHead :: captionTail segment)).findings.Caused := by
  have files := captionHead_files root context
  apply runChecks_cons_caused
  · intro omitted
    by_contra sound
    exact (files sound).1 omitted
  · intro sound
    rcases files sound with ⟨_, styles, regions⟩
    exact captionTail_caused segment _ styles regions

private theorem captionChecks_caused (segment : Segment Float) (schema : Option Schema)
    (context : Context) (root : Element) :
    (runChecks context root (captionChecks segment schema)).findings.Caused := by
  rw [captionChecks_eq, runChecks_append]
  exact (Log.caused_of_not_has (captionFront_not_has_skip schema context root)).append
    (captionBack_caused segment _ _)

theorem captions_caused (segment : Segment Float) (schema : Option Schema)
    (vertical : Bool) (bytes : Text.Bytes) :
    (runStages (captions segment schema) vertical bytes).findings.Caused := by
  have mended := Log.caused_of_not_has
    (runByteChecks_not_has_skip (captions segment schema).byteChecks bytes)
  rw [runStages]
  dsimp only
  split
  next finding unread =>
    apply mended.append
    exact fun _ => ⟨finding, List.mem_cons_self, readRoot_is_fail unread⟩
  next root read =>
    exact mended.append (captionChecks_caused segment schema _ root)

end TimedText
