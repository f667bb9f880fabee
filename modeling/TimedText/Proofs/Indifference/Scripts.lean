import TimedText.Proofs.Indifference
import TimedText.Proofs.Omission.Scripts
/-!
Scripts with foreign vocabulary. What is pruned from a script is gone for all checks that
come after the pruning: they take the same steps for all scripts of which pruning leaves the
same.
-/

namespace TimedText

open Check Profile Timing

def pruningChecks : List ElementCheck := [.uniqueIds, .vocabulary]

def prunedChecks (segment : Segment Float) (schema : Option Schema)
    (registries : Registries) : List ElementCheck :=
  (schema.map (ElementCheck.schema "DAPT")).toList
    ++ [.unqualifiedIds, .references, .root, .timeBase ["media"] false,
      .contentProfiles [scriptContentProfile] [] true,
      .head [.copyright false, .actors],
      .descriptionTypes registries.descriptionTypes,
      .contentDescriptors registries.contentDescriptors, .scriptTiming segment]

section

variable (segment : Segment Float) (schema : Option Schema) (registries : Registries)

theorem scriptChecks_pruned :
    scriptChecks segment schema registries
      = pruningChecks ++ prunedChecks segment schema registries := by
  rw [scriptChecks, List.append_assoc]
  rfl

theorem prunedChecks_indifferent :
    ∀ check ∈ prunedChecks segment schema registries, check.IsIndifferent := by
  have inner : ∀ check ∈ [ElementCheck.copyright false, .actors], check.IsIndifferent := by
    intro check member
    simp only [List.mem_cons, List.not_mem_nil, or_false] at member
    rcases member with rfl | rfl
    · exact isIndifferent_of_judgeBy fun _ => by rw [ElementCheck.run]
    · exact isIndifferent_of_judge fun _ => by rw [ElementCheck.run]
  intro check member
  simp only [prunedChecks, List.mem_append, Option.mem_toList, Option.map_eq_some_iff,
    List.mem_cons, List.not_mem_nil, or_false] at member
  rcases member with ⟨schema, _, rfl⟩ | rfl | rfl | rfl | rfl | rfl | rfl | rfl | rfl | rfl
  · exact isIndifferent_of_judge fun _ => by rw [ElementCheck.run]
  · exact isIndifferent_of_judge fun _ => by rw [ElementCheck.run]
  · exact isIndifferent_of_judge fun _ => by rw [ElementCheck.run]
  · exact root_isIndifferent
  · exact isIndifferent_of_judgeBy fun _ => by rw [ElementCheck.run]
  · exact isIndifferent_of_judgeBy fun _ => by rw [ElementCheck.run]
  · exact head_isIndifferent inner
  all_goals exact isIndifferent_of_judgeBy fun _ => by rw [ElementCheck.run]

end

/-! ## Pruning -/

private theorem checkIds_keeps_rest (root : Element) : (checkIds root).Keeps withoutIds := by
  refine (Run.change_keeps ?_).bind fun _ => Run.judge_keeps _
  exact fun _ => rfl

private def withoutReplacement (context : Context) : Context := { context with replacement := none }

private theorem withoutReplacement_of_unreplaced {context : Context}
    (unreplaced : context.replacement = none) : withoutReplacement context = context := by
  rw [withoutReplacement, ← unreplaced]

private theorem checkVocabulary_keeps_rest (root : Element) :
    (checkVocabulary root).Keeps withoutReplacement := by
  rw [checkVocabulary]
  dsimp only
  split
  · refine (Run.change_keeps ?_).bind fun _ =>
      (Run.note_keeps _).bind fun _ => Run.pure_keeps true
    exact fun _ => rfl
  · exact (Run.note_keeps _).bind fun _ => Run.pure_keeps true

private theorem passOn_pruningChecks {context : Context} (unreplaced : context.replacement = none)
    (root : Element) :
    (passOn context root pruningChecks).2 = (prune root).1 ∧
      withoutIds (passOn context root pruningChecks).1 = withoutIds context := by
  have filed : (checkIds root context).context.replacement = none :=
    (checkIds_keeps_replacement root context).trans unreplaced
  rw [pruningChecks, passOn, passOn, passOn, ElementCheck.run, ElementCheck.run, filed]
  change _ ∧ withoutIds (withoutReplacement (checkVocabulary root
    (withoutReplacement (checkIds root context).context)).context) = _
  refine ⟨checkVocabulary_replaces root rfl, ?_⟩
  rw [withoutReplacement_of_unreplaced filed, checkVocabulary_keeps_rest,
    withoutReplacement_of_unreplaced filed, checkIds_keeps_rest]

/-- After the pruning, a script is checked as if what is pruned had never been in it. -/
theorem steps_scriptChecks (segment : Segment Float) (schema : Option Schema)
    (registries : Registries) (context : Context) (unreplaced : context.replacement = none)
    (root : Element) :
    steps context root (scriptChecks segment schema registries)
      = steps context root pruningChecks
        ++ steps context (prune root).1 (prunedChecks segment schema registries) := by
  have indifferent := prunedChecks_indifferent segment schema registries
  rcases passOn_pruningChecks unreplaced root with ⟨document, alike⟩
  rw [scriptChecks_pruned, steps_append, document,
    steps_of_withoutIds_eq (fun check member element => (indifferent check member element).1)
      alike]

/-! ## Scripts -/

/-- The steps that are taken after pruning are the same for scripts of which it leaves the
same, and all of them see just that. What is found before does not bear on them. -/
theorem scripts_pruned_steps_agree {configuration : Configuration}
    (script : configuration.profile = .scripts) {left right : Element}
    (same : (prune left).1 = (prune right).1) :
    ∃ later : List Step,
      pruningChecks ++ later.map Step.check = configuration.constraints.checks ∧
      (∀ step ∈ later, step.seen = (prune left).1) ∧
      ∀ root ∈ [left, right],
        steps (.initial configuration.vertical) root configuration.constraints.checks
            = steps (.initial configuration.vertical) root pruningChecks ++ later ∧
          runChecks (.initial configuration.vertical) root configuration.constraints.checks
            = runChecks (.initial configuration.vertical) root pruningChecks
              ++ verdictOf later := by
  have checks : configuration.constraints.checks
      = scriptChecks configuration.segment configuration.schema configuration.registries := by
    rw [Configuration.constraints, script]
    rfl
  have indifferent := prunedChecks_indifferent configuration.segment configuration.schema
    configuration.registries
  rw [checks]
  refine ⟨steps (.initial configuration.vertical) (prune left).1
    (prunedChecks configuration.segment configuration.schema configuration.registries),
    ?_, ?_, ?_⟩
  · rw [map_check_steps, scriptChecks_pruned]
  · exact seen_of_keeps (fun check member element => (indifferent check member element).2)
      rfl _
  · intro root member
    have pruned : (prune root).1 = (prune left).1 := by
      rcases List.mem_pair.mp member with rfl | rfl
      · rfl
      · exact same.symm
    have steps := steps_scriptChecks configuration.segment configuration.schema
      configuration.registries (.initial configuration.vertical) rfl root
    rw [pruned] at steps
    refine ⟨steps, ?_⟩
    rw [runChecks_steps, steps, verdictOf_append, ← runChecks_steps]

def annotatedScript : Element :=
  { Element.bare (Name.qualified Vocabulary.core "tt") with
    attributes := [("\x7bx\x7dnote", "1")]
    children := [{ Element.bare "\x7bx\x7dnote" with tail := some " " }] }

def plainScript : Element :=
  { Element.bare (Name.qualified Vocabulary.core "tt") with text := some " " }

theorem scripts_pruned_steps_agree_annotated :
    (prune annotatedScript).2.length = 2 ∧ (prune plainScript).2 = [] ∧
      ∃ later : List Step, ∀ root ∈ [annotatedScript, plainScript],
        runChecks (.initial false) root (Configuration.standard .scripts).constraints.checks
          = runChecks (.initial false) root pruningChecks ++ verdictOf later := by
  have same : (prune annotatedScript).1 = (prune plainScript).1 := by rfl
  have script : (Configuration.standard .scripts).profile = .scripts := rfl
  rcases scripts_pruned_steps_agree script same with ⟨later, -, -, agree⟩
  exact ⟨by rfl, by rfl, later, fun root member => (agree root member).2⟩

end TimedText
