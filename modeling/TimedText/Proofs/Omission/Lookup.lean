import TimedText.Proofs.Completion.Presentation
import TimedText.Proofs.Omission
import TimedText.Proofs.Placement
import TimedText.Proofs.Timing.Defects
/-!
Checks that look up what others file, where nothing was filed. The checks of style and region
references leave out what they cannot look at: they say so, and their verdict is negative. The
check of the timing of captions only warns: its verdict is the one on the rest of what it
looks at.
-/

namespace TimedText

open Check Timing

namespace Check

private theorem Run.ofAttempt_bind_of_ok {α β : Type} {attempt : Attempt α} {value : α}
    (gives : attempt.result = .ok value) (next : α → Run β) (context : Context) :
    (Run.ofAttempt attempt >>= next) context =
      ⟨(next value context).result, (next value context).context,
        attempt.findings ++ (next value context).findings⟩ := by
  have runs : (Run.ofAttempt attempt context).result = .ok value := gives
  exact Run.bind_of_ok runs

variable {root : Element} {context : Context}

/-! ## References -/

structure Outcome.LeavesOut (outcome : Outcome Bool) : Prop where
  result : outcome.result = .ok false
  findings : outcome.findings.Has .skip

theorem checkStyleReferences_leavesOut (root : Element) (unknown : context.styles = none) :
    (checkStyleReferences root context).LeavesOut := by
  have resolves : (resolveReferences none root).result = .ok (true, .empty) := rfl
  have omitted : (resolveReferences none root).findings.Has .skip :=
    ⟨_, List.mem_cons_self, rfl⟩
  rcases checkBodyStyles_completes
    ⟨context.uri, .empty, context.cellResolution, .fontSizes context.vertical⟩ root with
    ⟨styled, gives, -⟩
  rw [checkStyleReferences, Run.context_bind, unknown, Run.ofAttempt_bind_of_ok resolves]
  dsimp only
  rw [Run.ofAttempt_bind_of_ok gives, Option.isSome_none, Bool.and_false]
  exact ⟨rfl, Log.has_append_iff.mpr (.inl omitted)⟩

theorem checkRegionReferences_leavesOut {body : Element}
    (single : root.childrenNamed (Name.qualified context.uri "body") = [body])
    (unknown : context.regions = none) : (checkRegionReferences root context).LeavesOut := by
  rcases placedChildren_of_single single with ⟨index, -, only⟩
  rw [checkRegionReferences, Run.context_bind]
  dsimp only
  rw [only, unknown]
  exact ⟨rfl, _, List.mem_cons_self, rfl⟩

/-! ## Timing -/

/-- The body of captions, and what its timing resolves to. -/
def CaptionsResolve (uri : String) (root : Element) (resolution : Resolution Float) : Prop :=
  ∃ parameters path body, (parametersOf root uri).result = .ok parameters ∧
    timedBody? uri root = some (path, body) ∧
    (resolve (captionRules parameters) path body).result = .ok resolution

/-- Where elements are shown is not known, or how regions look. -/
def LayoutUnknown (context : Context) : Prop :=
  context.placement = none ∨ context.regionStyles = none

private theorem checkLayout_of_layoutUnknown (unknown : LayoutUnknown context)
    (timeline : Timeline Float) :
    ∃ finding : Finding, finding.status = .warn ∧
      finding.code = .ebuttdOverlappingRegionConstraint ∧
      checkLayout context timeline = Attempt.judge (.remark finding) := by
  have lacks : ∃ fault, context.requirePlacement = .error fault := by
    rw [Context.requirePlacement]
    rcases unknown with placement | styles
    · rw [placement]
      exact ⟨_, rfl⟩
    · rw [styles]
      cases context.placement with
      | none => exact ⟨_, rfl⟩
      | some placement => exact ⟨_, rfl⟩
  rcases lacks with ⟨fault, lacks⟩
  rw [checkLayout, lacks]
  exact ⟨_, rfl, rfl, rfl⟩

private theorem captionTiming_of_layoutUnknown {resolution : Resolution Float}
    (segment : Segment Float) (resolves : CaptionsResolve context.uri root resolution)
    (unknown : LayoutUnknown context) :
    (captionTiming segment context root).result
        = .ok (resolution.valid && (checkGaps resolution.timeline).valid
          && (checkPosition segment resolution).valid) ∧
      ∃ finding ∈ (captionTiming segment context root).findings,
        finding.status = .warn ∧ finding.code = .ebuttdOverlappingRegionConstraint := by
  rcases resolves with ⟨parameters, path, body, parametersGive, found, bodyResolves⟩
  rcases checkLayout_of_layoutUnknown unknown resolution.timeline with
    ⟨finding, warns, code, layout⟩
  have gaps : (Attempt.judge (checkGaps resolution.timeline)).result = .ok _ := rfl
  have position : (Attempt.judge (checkPosition segment resolution)).result = .ok _ := rfl
  have warned : (Attempt.judge (.remark finding)).result = .ok true := rfl
  rw [captionTiming, Attempt.bind_of_ok parametersGive, found]
  dsimp only
  rw [Attempt.bind_of_ok bodyResolves]
  dsimp only
  rw [Attempt.bind_of_ok gaps, Attempt.bind_of_ok position, layout,
    Attempt.bind_of_ok warned]
  refine ⟨congrArg Except.ok (Bool.and_true _), finding, ?_, warns, code⟩
  iterate 4 apply List.mem_append_right
  exact List.mem_cons_self

theorem checkCaptionTiming_of_layoutUnknown {resolution : Resolution Float}
    (segment : Segment Float) (resolves : CaptionsResolve context.uri root resolution)
    (unknown : LayoutUnknown context) :
    (checkCaptionTiming segment context root).valid
        = (resolution.valid && (checkGaps resolution.timeline).valid
          && (checkPosition segment resolution).valid) ∧
      (∃ finding ∈ (checkCaptionTiming segment context root).findings,
        finding.status = .warn ∧ finding.code = .ebuttdOverlappingRegionConstraint) := by
  rcases captionTiming_of_layoutUnknown segment resolves unknown with ⟨gives, warned⟩
  rw [checkCaptionTiming, orTimingFault, gives]
  exact ⟨rfl, warned⟩

/-- Where no styles or no regions are filed, the checks of references leave out what they
cannot look at. Where it is not known where elements are shown, or how regions look, the check
of the timing of captions leaves out nothing: it warns, and holds where all else that it looks
at does. -/
theorem lookups_without_entries {body : Element}
    (single : root.childrenNamed (Name.qualified context.uri "body") = [body]) :
    (context.styles = none → (ElementCheck.styleReferences.run root context).LeavesOut) ∧
      (context.regions = none →
        (ElementCheck.regionReferences.run root context).LeavesOut) ∧
      ∀ segment resolution, CaptionsResolve context.uri root resolution →
        LayoutUnknown context →
          let outcome := (ElementCheck.captionTiming segment).run root context
          outcome.result
              = .ok (resolution.valid && (checkGaps resolution.timeline).valid
                && (checkPosition segment resolution).valid) ∧
            (∃ finding ∈ outcome.findings, finding.status = .warn ∧
              finding.code = .ebuttdOverlappingRegionConstraint) ∧
            ¬outcome.findings.Has .skip := by
  refine ⟨fun unknown => ?_, fun unknown => ?_, fun segment resolution resolves unknown => ?_⟩
  · rw [ElementCheck.run]
    exact checkStyleReferences_leavesOut root unknown
  · rw [ElementCheck.run]
    exact checkRegionReferences_leavesOut single unknown
  · rcases checkCaptionTiming_of_layoutUnknown segment resolves unknown with ⟨valid, warned⟩
    have defective := (checkCaptionTiming_accounts segment context root).within.not_has_skip
      (defects_fail _)
    rw [ElementCheck.run]
    exact ⟨congrArg Except.ok valid, warned, defective⟩

def consecutiveBody : Element :=
  let paragraph (begins ends : String) : Element :=
    { Element.bare (Name.qualified Vocabulary.core "p") with
      attributes := [("begin", begins), ("end", ends)] }
  { Element.bare (Name.qualified Vocabulary.core "body") with
    children := [paragraph "1s" "3s", paragraph "3s" "5s"] }

def consecutiveCaptions : Element :=
  { Element.bare (Name.qualified Vocabulary.core "tt") with children := [consecutiveBody] }

theorem lookups_without_entries_consecutive :
    consecutiveCaptions.childrenNamed (Name.qualified (Context.initial false).uri "body")
        = [consecutiveBody] ∧
      (ElementCheck.styleReferences.run consecutiveCaptions (.initial false)).LeavesOut ∧
      (ElementCheck.regionReferences.run consecutiveCaptions (.initial false)).LeavesOut ∧
      ((ElementCheck.captionTiming .whole).run consecutiveCaptions
        (.initial false)).result = .ok true ∧
      ¬((ElementCheck.captionTiming .whole).run consecutiveCaptions
        (.initial false)).findings.Has .skip := by
  have named : (consecutiveBody.tag
      == Name.qualified (Context.initial false).uri "body") = true := by decide +kernel
  have single : consecutiveCaptions.childrenNamed
      (Name.qualified (Context.initial false).uri "body") = [consecutiveBody] :=
    List.filter_cons_of_pos named
  have found : timedBody? (Context.initial false).uri consecutiveCaptions
      = some ([0], consecutiveBody) := timedBody?_of_first rfl named
  rcases Attempt.exists_ok (by decide +kernel :
    (resolve (captionRules .undeclared) [0] consecutiveBody).result.isOk = true) with
    ⟨resolution, resolves⟩
  have valid : (checkCaptionTiming .whole (.initial false) consecutiveCaptions).valid
      = true := by decide +kernel
  rcases lookups_without_entries single with ⟨styles, regions, timing⟩
  rcases timing .whole resolution ⟨_, _, _, rfl, found, resolves⟩ (.inl rfl) with
    ⟨-, -, unskipped⟩
  refine ⟨single, styles rfl, regions rfl, ?_, unskipped⟩
  rw [ElementCheck.run]
  exact congrArg Except.ok valid

end Check

end TimedText
