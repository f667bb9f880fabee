import TimedText.Proofs.Codes.Document
import TimedText.Proofs.Codes.Timing
import TimedText.Proofs.Indifference.Scripts
import TimedText.Proofs.Markup.Opening
import TimedText.Proofs.Tally
/-!
The codes of reports on scripts. Pruning takes out the attributes that would have identified
elements but are in no namespace, as no script is written with them. So the check that looks
for such attributes finds none, and no report on a script has its code.
-/

namespace TimedText

open Check Profile Timing

/-! ## What pruning leaves -/

namespace Check

def IsPruned (element : Element) : Prop :=
  ∀ pair ∈ element.attributes, isRecognisedAttribute pair.1 = true

mutual

theorem prune_isPruned : ∀ element : Element, IsPruned (prune element).1 ∧
    ∀ inner ∈ (prune element).1.descendants, IsPruned inner
  | ⟨tag, attributes, children, text, tail⟩ => by
      rw [prune]
      refine ⟨fun pair member => ?_, pruneAll_isPruned children⟩
      exact (List.mem_filter.mp member).2

private theorem pruneAll_isPruned : ∀ elements : List Element,
    ∀ inner ∈ Element.walkAll (pruneAll elements).kept, IsPruned inner
  | [] => by
      rw [pruneAll, Element.walkAll]
      exact nofun
  | first :: rest => by
      rw [pruneAll]
      dsimp only
      split
      · rcases prune_isPruned first with ⟨own, inside⟩
        rw [Markup.walkAll_cons]
        refine List.forall_mem_cons.mpr ⟨own, List.forall_mem_append.mpr ⟨inside, ?_⟩⟩
        exact pruneAll_isPruned rest
      · exact pruneAll_isPruned rest

end

private theorem not_hasAttribute_id_of_isPruned {element : Element} (pruned : IsPruned element) :
    element.hasAttribute "id" = false := by
  rw [Element.hasAttribute, List.any_eq_false]
  intro pair member same
  have recognised := pruned pair member
  rw [beq_iff_eq.mp same] at recognised
  exact absurd recognised (by decide +kernel)

theorem checkUnqualifiedIds_prune (root : Element) :
    checkUnqualifiedIds (prune root).1 = .silent := by
  have none : (prune root).1.descendants.filter (·.hasAttribute "id") = [] := by
    apply List.filter_eq_nil_iff.mpr
    intro inner member
    rw [not_hasAttribute_id_of_isPruned ((prune_isPruned root).2 inner member)]
    exact Bool.false_ne_true
  rw [checkUnqualifiedIds, none]
  rfl

theorem checkUnqualifiedIds_warns {root inner : Element} (member : inner ∈ root.descendants)
    (unqualified : inner.hasAttribute "id" = true) :
    ∃ finding ∈ (checkUnqualifiedIds root).findings,
      finding.status = .warn ∧ finding.code = .xmlIdUnqualified := by
  have found : (root.descendants.filter (·.hasAttribute "id")).isEmpty = false := by
    rw [List.isEmpty_eq_false_iff_exists_mem]
    exact ⟨inner, List.mem_filter.mpr ⟨member, unqualified⟩⟩
  rw [checkUnqualifiedIds, found]
  exact ⟨_, List.mem_cons_self, rfl, rfl⟩

/-! ## Checks of elements -/

variable {codes : List Code}

private theorem judgeBy_usesOnly {rule : String → Verdict}
    (each : ∀ uri, (rule uri).UsesOnly codes) : (judgeBy rule).UsesOnly codes := by
  apply Run.context_usesOnly.bind
  intro context
  exact Run.judge_usesOnly (each context.uri)

private theorem runAll_usesOnly {checks : List ElementCheck} {element : Element}
    (each : ∀ check ∈ checks, (check.run element).UsesOnly codes) :
    (runAll checks element).UsesOnly codes := by
  induction checks with
  | nil =>
      rw [runAll]
      exact Run.pure_usesOnly true
  | cons first rest induction =>
      rcases List.forall_mem_cons.mp each with ⟨own, others⟩
      rw [runAll]
      apply own.bind
      intro valid
      apply (induction others).bind
      intro valid
      exact Run.pure_usesOnly _

def headCodes : List Code := [.ttmlElementHead, .ebuttdHeadElementConstraint]

private theorem checkHead_usesOnly {inner : Element → Run Bool} (known : headCodes ⊆ codes)
    (each : ∀ head, (inner head).UsesOnly codes) (root : Element) :
    (checkHead inner root).UsesOnly codes := by
  apply Run.context_usesOnly.bind
  intro context
  dsimp only
  split
  next head _ =>
    apply (each head).bind
    intro valid
    cases valid with
    | false => exact Run.pure_usesOnly false
    | true =>
        exact (Run.note_usesOnly (Log.usesOnly_singleton (known (by decide)))).bind fun _ =>
          Run.pure_usesOnly true
  · apply Run.judge_usesOnly
    apply Verdict.against_usesOnly
    apply known
    split
    · decide
    · decide

end Check

def scriptElementCodes : List Code :=
  [.xmlIdUnique, .xmlPrune, .xmlXsd, .xmlTtNamespace, .xmlRootElement,
    .ebuttdParameterTimeBase, .ttmlParameterContentProfiles, .ttmlMetadataCopyright,
    .ttmlMetadataActorReference, .daptMetadataDesctypeValidity]
    ++ headCodes ++ referenceCodes ++ contentCodes ++ scriptTimingCodes

private theorem pruningChecks_usesOnly :
    ∀ check ∈ pruningChecks, ∀ element, (check.run element).UsesOnly scriptElementCodes := by
  intro check member element
  rcases List.mem_pair.mp member with rfl | rfl
  · rw [ElementCheck.run]
    exact (checkIds_usesOnly element).mono (by decide)
  · rw [ElementCheck.run]
    exact (checkVocabulary_usesOnly element).mono (by decide)

private theorem headChecks_usesOnly (head : Element) :
    (runAll [.copyright false, .actors] head).UsesOnly scriptElementCodes := by
  apply runAll_usesOnly
  intro check member
  rcases List.mem_pair.mp member with rfl | rfl
  · rw [ElementCheck.run]
    exact judgeBy_usesOnly fun uri => (checkCopyright_usesOnly false uri head).mono (by decide)
  · rw [ElementCheck.run]
    exact Run.judge_usesOnly ((checkActors_usesOnly head).mono (by decide))

private theorem prunedChecks_usesOnly (segment : Segment Float) (schema : Option Schema)
    (registries : Registries) (root : Element) :
    ∀ check ∈ prunedChecks segment schema registries,
      (check.run (prune root).1).UsesOnly scriptElementCodes := by
  intro check member
  simp only [prunedChecks, List.mem_append, Option.mem_toList, Option.map_eq_some_iff,
    List.mem_cons, List.not_mem_nil, or_false] at member
  rcases member with ⟨schema, _, rfl⟩ | rfl | rfl | rfl | rfl | rfl | rfl | rfl | rfl | rfl
  all_goals rw [ElementCheck.run]
  · exact Run.judge_usesOnly ((checkSchema_usesOnly _ schema _).mono (by decide))
  · rw [checkUnqualifiedIds_prune]
    exact Run.judge_usesOnly Verdict.silent_usesOnly
  · exact Run.judge_usesOnly ((checkAllReferences_usesOnly _).mono (by decide))
  · exact (fileRoot_usesOnly _).mono (by decide)
  · exact judgeBy_usesOnly fun uri => (checkTimeBase_usesOnly _ _ uri _).mono (by decide)
  · exact judgeBy_usesOnly fun uri =>
      (checkContentProfiles_usesOnly _ _ _ uri _).mono (by decide)
  · exact checkHead_usesOnly (by decide) headChecks_usesOnly _
  · exact judgeBy_usesOnly fun uri => (checkDescriptionTypes_usesOnly _ uri _).mono (by decide)
  · exact judgeBy_usesOnly fun uri =>
      (checkContentDescriptors_usesOnly _ uri _).mono (by decide)
  · exact judgeBy_usesOnly fun uri =>
      (checkScriptTiming_usesOnly segment uri _).mono (by decide)

/-! ## Stages -/

section

variable {codes : List Code}

private theorem runByteChecks_usesOnly (checks : List ByteCheck) (bytes : Text.Bytes) :
    (runByteChecks bytes checks).1.UsesOnly (.validatorInternalException :: byteCodes) := by
  induction checks generalizing bytes with
  | nil => exact Verdict.silent_usesOnly
  | cons check rest induction =>
      have uses := (check.run_usesOnly bytes).mono
        (List.subset_cons_self .validatorInternalException byteCodes)
      rw [runByteChecks]
      dsimp only
      split
      next valid mended gives => exact Verdict.UsesOnly.append uses (induction mended)
      next fault gives =>
        exact Verdict.UsesOnly.append
          (uses.append (Log.usesOnly_singleton List.mem_cons_self)) (induction bytes)

private theorem readRoot_usesOnly {bytes : Text.Bytes} {finding : Finding}
    (unread : readRoot bytes = .error finding) :
    (Verdict.against finding).UsesOnly [.preParseEncoding, .xmlParse] := by
  unfold readRoot at unread
  split at unread
  · cases unread
    exact Verdict.against_usesOnly (by decide)
  · split at unread
    · cases unread
    · cases unread
      exact Verdict.against_usesOnly (by decide)

private theorem findings_of_mem_steps {context : Context} {root : Element}
    {checks : List ElementCheck} {step : Step} (member : step ∈ steps context root checks) :
    step.check ∈ checks ∧
      ∃ before, step.findings = (step.check.run step.seen before).findings := by
  induction checks generalizing context root with
  | nil => cases member
  | cons check rest induction =>
      rcases List.mem_cons.mp member with rfl | member
      · exact ⟨List.mem_cons_self, context, rfl⟩
      · rcases induction member with ⟨checked, runs⟩
        exact ⟨List.mem_cons_of_mem check checked, runs⟩

private theorem verdictOf_usesOnly {taken : List Step}
    (each : ∀ step ∈ taken, step.findings.UsesOnly codes) :
    (verdictOf taken).UsesOnly (.validatorInternalException :: codes) := by
  induction taken with
  | nil => exact Verdict.silent_usesOnly
  | cons step rest induction =>
      rcases List.forall_mem_cons.mp each with ⟨own, others⟩
      have uses := own.mono (List.subset_cons_self .validatorInternalException codes)
      refine Verdict.UsesOnly.append ?_ (induction others)
      rw [Step.verdict]
      split
      · exact uses
      · exact uses.append (Log.usesOnly_singleton List.mem_cons_self)

private theorem runChecks_script_usesOnly (segment : Segment Float) (schema : Option Schema)
    (registries : Registries) (vertical : Bool) (root : Element) :
    (runChecks (.initial vertical) root (scriptChecks segment schema registries)).UsesOnly
      (.validatorInternalException :: scriptElementCodes) := by
  rw [runChecks_steps, steps_scriptChecks segment schema registries _ rfl]
  apply verdictOf_usesOnly
  intro step member
  rcases List.mem_append.mp member with member | member
  · rcases findings_of_mem_steps member with ⟨checked, before, runs⟩
    rw [runs]
    exact pruningChecks_usesOnly step.check checked step.seen before
  · rcases findings_of_mem_steps member with ⟨checked, before, runs⟩
    have indifferent := prunedChecks_indifferent segment schema registries
    have seen := seen_of_keeps (fun check member element => (indifferent check member element).2)
      rfl (prune root).1 step member
    rw [runs, seen]
    exact prunedChecks_usesOnly segment schema registries root step.check checked before

end

/-! ## Reports -/

def scriptReportCodes : List Code :=
  [.validatorInternalException, .preParseEncoding, .xmlParse, .xmlDocumentValidity,
    .ttmlDocumentValidity, .daptDocumentValidity] ++ byteCodes ++ scriptElementCodes

private theorem runStages_script_usesOnly (segment : Segment Float) (schema : Option Schema)
    (registries : Registries) (vertical : Bool) (bytes : Text.Bytes) :
    (runStages (Profile.scripts segment schema registries) vertical bytes).UsesOnly
      scriptReportCodes := by
  have mending := (runByteChecks_usesOnly (Profile.scripts segment schema registries).byteChecks
    bytes).mono (by decide : _ ⊆ scriptReportCodes)
  rw [runStages]
  dsimp only
  split
  next finding unread => exact mending.append ((readRoot_usesOnly unread).mono (by decide))
  next root read =>
    exact mending.append
      ((runChecks_script_usesOnly segment schema registries vertical root).mono (by decide))

private theorem concludeScript_usesOnly (log : Log) :
    (concludeScript log).summaries.UsesOnly scriptReportCodes := by
  have known : ∀ code ∈ [xml, core, script].map Standard.summary,
      code ∈ scriptReportCodes := by decide
  intro finding member
  have summarises := List.mem_map_of_mem (f := Finding.code) member
  rw [(concludeScript_tallies log).codes] at summarises
  exact known finding.code summarises

private theorem disagreement_usesOnly (valid : Bool) (conclusion : Conclusion) :
    (disagreement valid conclusion).UsesOnly scriptReportCodes := by
  rw [disagreement]
  split
  · exact Log.usesOnly_nil _
  · exact Log.usesOnly_singleton (by decide)

private theorem Log.UsesOnly.collateFrom {codes : List Code} {log : Log} (uses : log.UsesOnly codes)
    (whole : Log) (limit : Nat) (before : Log) :
    (Log.collateFrom whole limit before log).UsesOnly codes := by
  induction log generalizing before with
  | nil => exact Log.usesOnly_nil codes
  | cons finding rest induction =>
      rcases List.forall_mem_cons.mp uses with ⟨own, others⟩
      have following := induction others (finding :: before)
      rw [Log.collateFrom]
      split
      · exact List.forall_mem_cons.mpr ⟨own, following⟩
      · split
        · exact following
        · exact List.forall_mem_cons.mpr ⟨own, following⟩

theorem validate_script_usesOnly {configuration : Configuration}
    (script : configuration.profile = .scripts) (bytes : Text.Bytes) :
    (validate configuration bytes).log.UsesOnly scriptReportCodes := by
  have constraints : configuration.constraints = Profile.scripts configuration.segment
      configuration.schema configuration.registries := by
    rw [Configuration.constraints, script]
  rw [validate, constraints, validateAgainst]
  dsimp only
  have stages := runStages_script_usesOnly configuration.segment configuration.schema
    configuration.registries configuration.vertical bytes
  generalize runStages (Profile.scripts configuration.segment configuration.schema
    configuration.registries) configuration.vertical bytes = verdict at stages ⊢
  have whole := (Log.UsesOnly.append stages (concludeScript_usesOnly verdict.findings)).append
    (disagreement_usesOnly verdict.valid (concludeScript verdict.findings))
  split
  · exact whole.collateFrom _ _ _
  · exact whole

/-- No report on a script has a finding about identifying attributes in no namespace. The
check for them finds such attributes where there are any below the root, but it only sees
what pruning leaves, and there are none in that. -/
theorem validate_script_overlooks_unqualified_ids {configuration : Configuration}
    (script : configuration.profile = .scripts) (bytes : Text.Bytes) :
    (∀ finding ∈ (validate configuration bytes).log, finding.code ≠ .xmlIdUnqualified) ∧
      ∀ root, checkUnqualifiedIds (prune root).1 = .silent ∧
        ((∃ inner ∈ root.descendants, inner.hasAttribute "id" = true) →
          ∃ finding ∈ (checkUnqualifiedIds root).findings,
            finding.status = .warn ∧ finding.code = .xmlIdUnqualified) := by
  refine ⟨?_, fun root => ⟨checkUnqualifiedIds_prune root, ?_⟩⟩
  · intro finding member same
    have known := validate_script_usesOnly script bytes finding member
    rw [same] at known
    exact absurd known (by decide)
  · rintro ⟨inner, member, unqualified⟩
    exact checkUnqualifiedIds_warns member unqualified

def unqualifiedIdText : String :=
  "<tt xmlns=\"http://www.w3.org/ns/ttml\"><body id=\"b\"/></tt>"

theorem validate_script_overlooks_unqualified_ids_body :
    (∃ root body, readRoot (Text.Utf8.encode unqualifiedIdText.toList) = .ok root ∧
        root.children = [body] ∧ body.hasAttribute "id" = true ∧
        (prune root).1.children.map Element.tag = [body.tag] ∧
        ∃ finding ∈ (checkUnqualifiedIds root).findings,
          finding.status = .warn ∧ finding.code = .xmlIdUnqualified) ∧
      ∀ finding ∈ (validate (.standard .scripts)
          (Text.Utf8.encode unqualifiedIdText.toList)).log,
        finding.code ≠ .xmlIdUnqualified := by
  have script : (Configuration.standard .scripts).profile = .scripts := rfl
  rcases validate_script_overlooks_unqualified_ids script
    (Text.Utf8.encode unqualifiedIdText.toList) with ⟨silent, overlooked⟩
  have shape : (readRoot (Text.Utf8.encode unqualifiedIdText.toList)).toOption.map (fun root =>
      (root.children.map (·.hasAttribute "id"),
        (prune root).1.children.map Element.tag == root.children.map Element.tag))
      = some ([true], true) := by decide +kernel
  cases read : readRoot (Text.Utf8.encode unqualifiedIdText.toList) with
  | error finding =>
      rw [read] at shape
      cases shape
  | ok root =>
      rw [read] at shape
      rcases Prod.mk.inj (Option.some.inj shape) with ⟨unqualified, kept⟩
      rcases List.map_eq_singleton_iff.mp unqualified with ⟨body, children, unqualified⟩
      rw [children] at kept
      have member : body ∈ root.descendants := by
        rw [Element.descendants, children, Markup.walkAll_cons]
        exact List.mem_cons_self
      exact ⟨⟨root, body, rfl, children, unqualified, beq_iff_eq.mp kept,
        (overlooked root).2 ⟨body, member, unqualified⟩⟩, silent⟩

end TimedText
