import TimedText.Proofs.Frame
import TimedText.Proofs.Omission
import TimedText.Proofs.Pruning
/-!
Omissions in scripts. The only rules that are left out are those about the timing
of a script that has no body, and this may be all that is wrong with it. What
counts is the document that pruning leaves, in the namespace of its root.
-/

namespace TimedText

open Check Profile Timing

/-! ## Timing -/

private theorem checkScriptTiming_omits_iff (segment : Segment Float) (uri : String)
    (root : Element) (sound : ¬(checkScriptTiming segment uri root).findings.Has .fail) :
    (checkScriptTiming segment uri root).findings.Has .skip ↔
      timedBody? uri root = none := by
  have accounts := checkScriptTiming_accounts segment uri root
  cases found : timedBody? uri root with
  | some body =>
      rw [found] at accounts
      refine iff_of_false ?_ (by simp)
      exact accounts.within.not_has_skip (defects_fail _)
  | none =>
      refine iff_of_true ?_ rfl
      rw [checkScriptTiming, scriptTiming] at sound ⊢
      cases gives : (parametersOf root uri).result with
      | error fault =>
          rw [Attempt.bind_of_error gives] at sound
          exact absurd (Log.has_append_iff.mpr (.inr (Log.has_of_fail List.mem_cons_self)))
            sound
      | ok parameters =>
          rw [Attempt.bind_of_ok gives, found]
          exact ⟨_, List.mem_append_right _
            (List.mem_append_right _ List.mem_cons_self), rfl⟩

private theorem timedBody?_eq_none_iff (root : Element) :
    timedBody? Vocabulary.core root = none ↔
      ∀ child ∈ root.children, child.localPart ≠ "body" := by
  have placed : (root.placedChildren []).map Prod.snd = root.children := by
    simp [Element.placedChildren, Function.comp_def, List.zipIdx_map_fst]
  have qualified : Name.localPart (Name.qualified Vocabulary.core "body") = "body" := by
    decide
  rw [← placed, List.forall_mem_map]
  rw [timedBody?]
  dsimp only
  rw [Option.or_eq_none_iff, List.find?_eq_none, List.find?_eq_none]
  constructor
  · rintro ⟨_, absent⟩ pair member same
    exact absent pair member (beq_iff_eq.mpr same)
  · intro absent
    refine ⟨fun pair member same => absent pair member ?_, fun pair member same =>
      absent pair member (beq_iff_eq.mp same)⟩
    rw [Element.localPart, beq_iff_eq.mp same, qualified]

private theorem checkRoot_uri {root : Element} (sound : ¬(checkRoot root).findings.Has .fail) :
    root.uri?.getD "" = Vocabulary.core := by
  by_contra other
  apply sound
  have differs : (root.uri?.getD "" == Vocabulary.core) = false := by simpa using other
  rw [checkRoot]
  simp only [differs]
  exact Log.has_append_iff.mpr (.inl ⟨_, List.mem_cons_self, rfl⟩)

/-! ## Checks in turn -/

private def scriptOpening (schema : Option Schema) : List ElementCheck :=
  [.uniqueIds, .vocabulary]
    ++ ((schema.map (ElementCheck.schema "DAPT")).toList ++ [.unqualifiedIds, .references])

private def scriptMiddle (registries : Registries) : List ElementCheck :=
  [.timeBase ["media"] false, .contentProfiles [scriptContentProfile] [] true,
    .head [.copyright false, .actors],
    .descriptionTypes registries.descriptionTypes,
    .contentDescriptors registries.contentDescriptors]

private theorem scriptChecks_eq (segment : Segment Float) (schema : Option Schema)
    (registries : Registries) :
    scriptChecks segment schema registries = scriptOpening schema
      ++ (.root :: (scriptMiddle registries ++ [.scriptTiming segment])) := by
  cases schema <;> rfl

private theorem scriptOpening_not_has_skip (schema : Option Schema) (context : Context)
    (root : Element) :
    ¬(runChecks context root (scriptOpening schema)).findings.Has .skip :=
  runChecks_schema_not_has_skip _ _ _ schema (by cases schema <;> rfl) (by decide)
    context root

private theorem scriptMiddle_not_has_skip (registries : Registries) (context : Context)
    (root : Element) :
    ¬(runChecks context root (scriptMiddle registries)).findings.Has .skip := by
  have defective : ∀ charge ∈ chargesOfAll (scriptMiddle .published),
      charge.1 = .fail := by
    decide
  apply runChecks_not_has_skip rfl
  exact defective

theorem checkVocabulary_replaces (root : Element) {context : Context}
    (unreplaced : context.replacement = none) :
    (checkVocabulary root context).context.replacement.getD root = (prune root).1 := by
  rw [checkVocabulary]
  dsimp only
  split
  · rfl
  next nothing =>
    have same : (prune root).1 = root := prune_of_nothing root (by simpa using nothing)
    change context.replacement.getD root = _
    rw [unreplaced, same]
    rfl

theorem checkIds_keeps_replacement (root : Element) :
    (checkIds root).Keeps Context.replacement := by
  refine (Run.change_keeps ?_).bind fun _ => Run.judge_keeps _
  exact fun _ => rfl

private theorem passOn_scriptOpening (schema : Option Schema) {context : Context}
    (unreplaced : context.replacement = none) (root : Element) :
    (passOn context root (scriptOpening schema)).2 = (prune root).1 := by
  have still : ∀ check ∈ (schema.map (ElementCheck.schema "DAPT")).toList
      ++ [.unqualifiedIds, .references], check.IsStill := by
    intro check member element
    simp only [List.mem_append, Option.mem_toList, Option.map_eq_some_iff,
      List.mem_cons, List.not_mem_nil, or_false] at member
    rcases member with ⟨schema, _, rfl⟩ | rfl | rfl <;>
      rw [ElementCheck.run] <;> exact Run.judge_keeps _
  rw [scriptOpening, passOn_append, passOn_of_still still
    (passOn_unreplaced unreplaced root [.uniqueIds, .vocabulary])]
  rw [passOn, passOn, passOn, ElementCheck.run, ElementCheck.run,
    checkIds_keeps_replacement root context, unreplaced]
  exact checkVocabulary_replaces root rfl

private theorem passOn_scriptMiddle (registries : Registries) {context : Context}
    (unreplaced : context.replacement = none) (root : Element) :
    passOn context root (scriptMiddle registries) = (context, root) := by
  apply passOn_of_still _ unreplaced
  intro check member element
  simp only [scriptMiddle, List.mem_cons, List.not_mem_nil, or_false] at member
  rcases member with rfl | rfl | rfl | rfl | rfl
  case inr.inr.inl =>
    rw [ElementCheck.run]
    refine checkHead_keeps (fun head => runAll_keeps ?_ head) element
    intro check member element
    simp only [List.mem_cons, List.not_mem_nil, or_false] at member
    rcases member with rfl | rfl
    · rw [ElementCheck.run]
      exact judgeBy_keeps _
    · rw [ElementCheck.run]
      exact Run.judge_keeps _
  all_goals
    rw [ElementCheck.run]
    exact judgeBy_keeps _

private theorem runChecks_root {context : Context} (unreplaced : context.replacement = none)
    (root : Element) (rest : List ElementCheck) :
    ∃ later : Context, later.replacement = none ∧ later.uri = root.uri?.getD "" ∧
      runChecks context root (.root :: rest)
        = checkRoot root ++ runChecks later root rest := by
  refine ⟨{ context with rootUri := some (root.uri?.getD "") }, unreplaced, rfl, ?_⟩
  rw [runChecks, ElementCheck.run]
  cases context
  cases unreplaced
  rfl

private theorem runChecks_scriptTiming (segment : Segment Float) (context : Context)
    (root : Element) :
    runChecks context root [.scriptTiming segment]
      = checkScriptTiming segment context.uri root ++ .silent := by
  rw [runChecks, ElementCheck.run]
  rfl

/-- The timing of a script is that of what pruning leaves of it. -/
private theorem runChecks_scriptChecks (segment : Segment Float) (schema : Option Schema)
    (registries : Registries) {context : Context} (unreplaced : context.replacement = none)
    (root : Element) :
    ∃ later : Context, later.uri = (prune root).1.uri?.getD "" ∧
      runChecks context root (scriptChecks segment schema registries)
        = runChecks context root (scriptOpening schema)
          ++ (checkRoot (prune root).1
            ++ (runChecks later (prune root).1 (scriptMiddle registries)
              ++ (checkScriptTiming segment later.uri (prune root).1 ++ .silent))) := by
  have passed := passOn_scriptOpening schema unreplaced root
  have kept := passOn_unreplaced unreplaced root (scriptOpening schema)
  obtain ⟨later, unreplaced, uri, rooted⟩ := runChecks_root kept (prune root).1
    (scriptMiddle registries ++ [.scriptTiming segment])
  refine ⟨later, uri, ?_⟩
  rw [scriptChecks_eq, runChecks_append, passed, rooted, runChecks_append,
    passOn_scriptMiddle registries unreplaced, runChecks_scriptTiming]

private theorem scriptChecks_omit_iff (segment : Segment Float) (schema : Option Schema)
    (registries : Registries) {context : Context} (unreplaced : context.replacement = none)
    (root : Element)
    (sound : ¬(runChecks context root
      (scriptChecks segment schema registries)).findings.Has .fail) :
    (runChecks context root (scriptChecks segment schema registries)).findings.Has .skip ↔
      ∀ child ∈ (prune root).1.children, child.localPart ≠ "body" := by
  obtain ⟨later, uri, parts⟩ :=
    runChecks_scriptChecks segment schema registries unreplaced root
  have split (status : Status) :
      (runChecks context root
          (scriptChecks segment schema registries)).findings.Has status ↔
        (runChecks context root (scriptOpening schema)).findings.Has status ∨
          (checkRoot (prune root).1).findings.Has status ∨
          (runChecks later (prune root).1 (scriptMiddle registries)).findings.Has status ∨
          (checkScriptTiming segment later.uri (prune root).1).findings.Has status := by
    rw [parts]
    refine Log.has_append_iff.trans (or_congr_right (Log.has_append_iff.trans
      (or_congr_right (Log.has_append_iff.trans (or_congr_right ?_)))))
    refine Log.has_append_iff.trans (or_iff_left ?_)
    rintro ⟨finding, member, _⟩
    cases member
  rw [split, not_or, not_or, not_or] at sound
  rw [split]
  rcases sound with ⟨_, soundRoot, _, soundTiming⟩
  have opening := scriptOpening_not_has_skip schema context root
  have rooted := (checkRoot_accounts (prune root).1).within.not_has_skip (defects_fail _)
  have middle := scriptMiddle_not_has_skip registries later (prune root).1
  rw [checkScriptTiming_omits_iff segment _ _ soundTiming, uri, checkRoot_uri soundRoot,
    timedBody?_eq_none_iff]
  simp only [opening, rooted, middle, false_or]

theorem scripts_omit_iff (segment : Segment Float) (schema : Option Schema)
    (registries : Registries) (vertical : Bool) (bytes : Text.Bytes)
    (sound : ¬(runStages (scripts segment schema registries) vertical
      bytes).findings.Has .fail) :
    (runStages (scripts segment schema registries) vertical bytes).findings.Has .skip ↔
      ∃ root,
        readRoot (runByteChecks bytes
          (scripts segment schema registries).byteChecks).2 = .ok root ∧
        ∀ child ∈ (prune root).1.children, child.localPart ≠ "body" := by
  have mended := runByteChecks_not_has_skip
    (scripts segment schema registries).byteChecks bytes
  revert sound
  rw [runStages]
  dsimp only
  split
  next finding unread =>
    intro sound
    exact absurd (Log.has_append_iff.mpr
      (.inr ⟨finding, List.mem_cons_self, readRoot_is_fail unread⟩)) sound
  next root read =>
    intro sound
    have checked := scriptChecks_omit_iff segment schema registries rfl root
      fun failed => sound (Log.has_append_iff.mpr (.inr failed))
    refine (Log.has_append_iff.trans (or_iff_right mended)).trans (checked.trans ?_)
    constructor
    · exact fun absent => ⟨root, read, absent⟩
    · rintro ⟨other, reads, absent⟩
      cases read.symm.trans reads
      exact absent

end TimedText
