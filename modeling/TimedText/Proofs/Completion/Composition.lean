import TimedText.Proofs.Completion.Presentation
import TimedText.Proofs.Tally
/-!
No check of a profile stops at a fault. Every check that is given by name completes on
every element and in every context, and so do checks that are run in turn. What is found
is then a matter of the document, and never that the validator came upon something that
it could not deal with.
-/

namespace TimedText

namespace Check

mutual

/-- Only the check of styles needs an invariant. Those of timing make findings of their
faults, and all others have none. -/
theorem ElementCheck.run_completes : ∀ check : ElementCheck, check.isNamed = true →
    ∀ element, (check.run element).Completes
  | .uniqueIds, _, element => by
      rw [ElementCheck.run]
      exact checkIds_completes element
  | .unqualifiedIds, _, element | .hasId, _, element | .references, _, element
  | .activeArea _, _, element | .actors, _, element | .untimed, _, element
  | .noLooseText, _, element | .schema _ _, _, element => by
      rw [ElementCheck.run]
      exact Run.judge_completes _
  | .timeBase _ _, _, element | .contentProfiles _ _ _, _, element
  | .copyright _, _, element | .inlineStyles, _, element | .lineBreaks, _, element
  | .descriptionTypes _, _, element | .contentDescriptors _, _, element
  | .scriptTiming _, _, element => by
      rw [ElementCheck.run]
      exact judgeBy_completes _
  | .notNested, _, element | .captionTiming _, _, element => by
      rw [ElementCheck.run]
      exact Run.context_completes.bind fun _ => Run.judge_completes _
  | .root, _, element => by
      rw [ElementCheck.run]
      exact fileRoot_completes element
  | .cellResolution required, _, element => by
      rw [ElementCheck.run]
      exact fileCellResolution_completes required element
  | .styling, _, element => by
      rw [ElementCheck.run]
      exact fileStyles_completes element
  | .layout, _, element => by
      rw [ElementCheck.run]
      exact fileRegions_completes element
  | .styleReferences, _, element => by
      rw [ElementCheck.run]
      exact checkStyleReferences_completes element
  | .regionReferences, _, element => by
      rw [ElementCheck.run]
      exact checkRegionReferences_completes element
  | .vocabulary, _, element => by
      rw [ElementCheck.run]
      exact checkVocabulary_completes element
  | .head inner, named, element => by
      rw [ElementCheck.run]
      exact checkHead_completes (runAll_completes inner named) element
  | .body inner, named, element => by
      rw [ElementCheck.run]
      exact checkBody_completes (runAll_completes inner named) element
  | .divisions inner nested, named, element => by
      rw [ElementCheck.run]
      exact checkDivisions_completes (runAll_completes inner named) nested element
  | .paragraphs inner, named, element => by
      rw [ElementCheck.run]
      exact checkParagraphs_completes (runAll_completes inner named) element
  | .spans inner textRequired nestingPermitted, named, element => by
      rw [ElementCheck.run]
      exact checkSpans_completes (runAll_completes inner named) textRequired
        nestingPermitted element

private theorem runAll_completes : ∀ checks : List ElementCheck, areNamed checks = true →
    ∀ element, (runAll checks element).Completes
  | [], _, element => by
      rw [runAll]
      exact Run.pure_completes true
  | first :: rest, named, element => by
      rw [areNamed, Bool.and_eq_true] at named
      rw [runAll]
      apply (first.run_completes named.1 element).bind
      intro valid
      apply (runAll_completes rest named.2 element).bind
      intro others
      exact Run.pure_completes _

end

theorem isNamed_of_mem {checks : List ElementCheck} (named : areNamed checks = true) :
    ∀ check ∈ checks, check.isNamed = true := by
  induction checks with
  | nil => exact nofun
  | cons first rest induction =>
      rw [areNamed, Bool.and_eq_true] at named
      exact List.forall_mem_cons.mpr ⟨named.1, induction named.2⟩

end Check

open Check

/-! ## Checks in turn -/

theorem runChecks_within {checks : List ElementCheck} (named : areNamed checks = true)
    (context : Context) (root : Element) :
    (runChecks context root checks).findings.Within (chargesOfAll checks) := by
  induction checks generalizing context root with
  | nil => exact Log.within_nil _
  | cons check rest induction =>
      rw [areNamed, Bool.and_eq_true] at named
      rcases check.run_completes named.1 root context with ⟨valid, gives⟩
      have own := (check.run_sound named.1 root context).within
      rw [runChecks, chargesOfAll]
      dsimp only
      rw [gives]
      exact Log.within_append (own.mono (List.subset_append_left _ _))
        ((induction named.2 _ _).mono (List.subset_append_right _ _))

/-- Whatever the document and the configuration, each check of the profile gives its
verdict when its turn comes, and no finding of the stage is about a fault. -/
theorem runChecks_never_faults (configuration : Configuration) (root : Element) :
    let checks := configuration.constraints.checks
    (∀ turn : Fin checks.length,
      let (context, document) :=
        passOn (.initial configuration.vertical) root (checks.take turn)
      ∃ valid, (checks[turn].run document context).result = .ok valid) ∧
    ∀ name fault, faultFinding name fault ∉
      (runChecks (.initial configuration.vertical) root checks).findings := by
  intro checks
  have covered := configuration.constraints_covered
  constructor
  · intro turn
    have named := isNamed_of_mem covered.named _ (List.getElem_mem turn.isLt)
    exact ElementCheck.run_completes checks[turn] named _ _
  · intro name fault member
    have charged := runChecks_within covered.named _ root _ member rfl
    exact (covered.matters _ (List.mem_append_right _ charged)).2 rfl

end TimedText
