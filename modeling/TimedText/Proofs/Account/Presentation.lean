import TimedText.Check.RegionReference
import TimedText.Proofs.Account
import TimedText.Proofs.Cascade.Report
/-!
The accounts of the checks of styles and regions. What is wrong with a region in
which nothing is shown gives warnings only, and then the region is as it should
be: its verdict is weighed by its use.
-/

namespace TimedText

open Verdict

/-! ## Weighed verdicts -/

/-- The status of what is wrong with something that may not be in use. -/
private def Status.weighed (used : Bool) : Status :=
  if used then .fail else .warn

/-- A verdict that only counts if its subject is in use. -/
private def Verdict.weighed (used : Bool) (verdict : Verdict) : Verdict :=
  ⟨!used || verdict.valid, verdict.findings⟩

namespace Verdict

variable {charges : List Charge} {used : Bool}

private theorem weighed_append (used : Bool) (left right : Verdict) :
    (left ++ right).weighed used = left.weighed used ++ right.weighed used := by
  change (⟨!used || (left.valid && right.valid), _⟩ : Verdict)
    = ⟨(!used || left.valid) && (!used || right.valid), _⟩
  rw [Bool.or_and_distrib_left]
  rfl

private theorem weighed_silent (used : Bool) : silent.weighed used = silent := by
  cases used <;> rfl

private theorem weighed_remark (used : Bool) (finding : Finding) :
    (remark finding).weighed used = remark finding := by
  cases used <;> rfl

private theorem weighed_when (used condition : Bool) (verdict : Verdict) :
    (when condition verdict).weighed used = when condition (verdict.weighed used) := by
  cases condition with
  | false => exact weighed_silent used
  | true => rfl

private theorem weighed_all (used : Bool) (verdicts : List Verdict) :
    (all verdicts).weighed used = all (verdicts.map (weighed used)) := by
  induction verdicts with
  | nil => exact weighed_silent used
  | cons first rest induction =>
      change (first ++ all rest).weighed used = _
      rw [weighed_append, induction]
      rfl

private theorem weighed_forEach {α : Type} (used : Bool) (members : List α)
    (rule : α → Verdict) :
    (forEach members rule).weighed used
      = forEach members fun member => (rule member).weighed used := by
  rw [forEach, weighed_all, List.map_map]
  rfl

private theorem against_weighed_accounts {code : Code} {location message : String}
    (known : (.fail, code) ∈ charges) :
    ((against ⟨.weighed used, code, location, message⟩).weighed used).Accounts
      charges := by
  cases used with
  | false => exact remark_accounts rfl
  | true => exact fail_accounts known

end Verdict

/-! ## Computed values -/

namespace Style

private theorem checkApplicability_accounts (kind : String) (specified : Specified) :
    (checkApplicability kind specified).Accounts
      (defects [.ttmlStylingAttributeApplicability]) :=
  forEach_accounts fun _ => (fail_accounts (by decide)).when _

private theorem resolveAll_accounts (styles : Catalogue Element) :
    (resolveAll styles).verdict.Accounts (defects [.ttmlStylingReferentialChained]) := by
  have reports := resolveEach_reports styles styles.entries []
  rcases reports.findings with ⟨fresh, findings⟩
  change (resolveEach styles [] styles.entries).2.Accounts _
  refine ⟨?_, ?_⟩
  · cases fresh with
    | nil =>
        have clean : (resolveEach styles [] styles.entries).2.findings = [] := findings
        rw [clean]
        by_contra invalid
        rcases reports.reported (eq_false_of_ne_true invalid) with some | some
        · exact some rfl
        · exact some clean
    | cons first rest =>
        rw [reports.invalid (by simp [findings]), findings]
        rfl
  · intro finding member _
    rw [findings] at member
    rcases List.mem_map.mp member with ⟨reference, _, rfl⟩
    exact List.mem_singleton_self _

variable (used : Bool)

private theorem Computation.add_accounts (uri : String) (specified : Specified)
    (parent : Computed) (computation : Computation) (property : Property)
    (before : (computation.verdict.weighed used).Accounts
      (defects [.ttmlAttributeStylingAttribute])) :
    ((computation.add uri specified parent (.weighed used) property).verdict.weighed
      used).Accounts (defects [.ttmlAttributeStylingAttribute]) := by
  rw [Computation.add]
  dsimp only
  split
  · exact before
  · change ((computation.verdict ++ against _).weighed used).Accounts _
    rw [weighed_append]
    exact before.append (against_weighed_accounts (by decide))

private theorem computeAll_weighed_accounts (uri : String) (specified : Specified)
    (parent : Computed) (setting : Setting) :
    ((computeAll uri specified parent setting (.weighed used)).verdict.weighed
      used).Accounts (defects [.ttmlAttributeStylingAttribute]) := by
  have fold (rest : List Property) (computation : Computation)
      (before : (computation.verdict.weighed used).Accounts
        (defects [.ttmlAttributeStylingAttribute])) :
      ((rest.foldl (Computation.add uri specified parent (.weighed used))
        computation).verdict.weighed used).Accounts
          (defects [.ttmlAttributeStylingAttribute]) := by
    induction rest generalizing computation with
    | nil => exact before
    | cons property rest induction =>
        exact induction _
          (computation.add_accounts used uri specified parent property before)
  apply fold
  rw [weighed_silent]
  exact silent_accounts

private theorem computeAll_accounts (uri : String) (specified : Specified)
    (parent : Computed) (setting : Setting) :
    (computeAll uri specified parent setting .fail).verdict.Accounts
      (defects [.ttmlAttributeStylingAttribute]) :=
  computeAll_weighed_accounts true uri specified parent setting

end Style

namespace Check

open Style

/-! ## Styles of content -/

private theorem strayReferences_isClean (styles : Catalogue Element) (root : Element) :
    Log.isClean (strayReferences styles root) = true := by
  have dangling (element : Element) :
      Log.isClean (danglingReferences styles element) = true := by
    apply List.all_eq_true.mpr
    intro finding member
    rcases List.mem_map.mp member with ⟨_, _, rfl⟩
    rfl
  unfold strayReferences
  dsimp only
  rw [Log.isClean_append, Log.isClean_flatMap, Bool.and_eq_true]
  constructor
  · exact List.all_eq_true.mpr fun element _ => dangling element
  · apply List.all_eq_true.mpr
    intro finding member
    rcases List.mem_map.mp member with ⟨_, _, rfl⟩
    rfl

def styleDefects : List Charge := defects [
  .ttmlElementBody, .ttmlStylingReferentialChained,
  .ttmlStylingAttributeApplicability, .ttmlAttributeStylingAttribute,
  .bbcBlockBackgroundColorConstraint, .bbcTextFontFamilyConstraint,
  .bbcTextFontSizeConstraint, .bbcTextLineHeightConstraint,
  .bbcTextLinePaddingConstraint, .bbcTextFillLineGapConstraint,
  .bbcTextColorConstraint, .bbcTextBackgroundColorConstraint]

abbrev styleCharges (known : Bool) : List Charge :=
  omitting known .ttmlStyling styleDefects

private theorem checkBlockBackground_accounts (uri : String) (specified : Specified)
    (element : Element) :
    (checkBlockBackground uri specified element).Accounts styleDefects := by
  rw [checkBlockBackground]
  dsimp only
  split
  · exact silent_accounts
  · split
    · exact fail_accounts (by decide)
    · exact (fail_accounts (by decide)).when _

private theorem forValue_accounts {charges : List Charge} (computed : Computed) (name : String)
    {rule : String → Attempt Bool}
    (each : ∀ value, (rule value).Accounts charges true id) :
    (forValue computed name rule).Accounts charges true id := by
  rw [forValue]
  split
  · exact each _
  · exact Attempt.pure_accounts rfl

private theorem checkFamilies_accounts (location value : String) :
    (checkFamilies location value).Accounts styleDefects :=
  (fail_accounts (by decide)).when _

private theorem checkFontSize_accounts (range : Range) (location : String) (size : Float) :
    (checkFontSize range location size).Accounts styleDefects := by
  unfold checkFontSize
  dsimp only
  split
  · exact remark_accounts rfl
  · exact fail_accounts (by decide)

private theorem measured_accounts {charges : List Charge} (measured : Except Fault Float)
    {rule : Float → Verdict} (each : ∀ size, (rule size).Accounts charges) :
    (Attempt.ofExcept measured >>= fun size => Attempt.judge (rule size)).Accounts
      charges true id := by
  apply Attempt.Accounts.bind (Attempt.ofExcept_accounts measured)
  intro size
  exact Attempt.judge_accounts (each size)

private theorem checkFont_accounts (sizes : Range) (location : String) (computed : Computed) :
    (checkFont sizes location computed).Accounts styleDefects true id := by
  rw [checkFont]
  apply Attempt.Accounts.bind
  · exact forValue_accounts computed "fontFamily" fun value =>
      Attempt.judge_accounts (checkFamilies_accounts location value)
  intro family
  apply Attempt.Accounts.bind
  · exact (forValue_accounts computed "fontSize" fun value =>
      measured_accounts _ (checkFontSize_accounts sizes location)).after _
  intro size
  exact Attempt.pure_accounts rfl

private theorem checkRowAlignment_accounts (location : String) (computed : Computed)
    (value : String) :
    (checkRowAlignment location computed value).Accounts styleDefects := by
  unfold checkRowAlignment
  dsimp only
  split
  · exact silent_accounts
  · split
    · exact remark_accounts rfl
    · exact remark_accounts rfl

private theorem checkLinePadding_accounts (location value : String) (padding : Float) :
    (checkLinePadding location value padding).Accounts styleDefects := by
  rw [checkLinePadding]
  split
  · exact remark_accounts rfl
  · exact fail_accounts (by decide)

private theorem checkLines_accounts (sizes : Range) (location : String) (computed : Computed) :
    (checkLines sizes location computed).Accounts styleDefects true id := by
  rw [checkLines]
  apply Attempt.Accounts.bind
  · apply forValue_accounts computed "lineHeight"
    intro value
    split
    · exact Attempt.judge_accounts (remark_accounts rfl)
    · exact measured_accounts _ fun height => (fail_accounts (by decide)).when _
  intro height
  apply Attempt.Accounts.bind
  · exact (forValue_accounts computed "multiRowAlign" fun value =>
      Attempt.judge_accounts (checkRowAlignment_accounts location computed value)).after _
  intro alignment
  apply Attempt.Accounts.bind
  · exact (forValue_accounts computed "linePadding" fun value =>
      measured_accounts _ (checkLinePadding_accounts location value)).after _
  intro padding
  apply Attempt.Accounts.bind
  · exact (forValue_accounts computed "fillLineGap" fun value =>
      Attempt.judge_accounts ((fail_accounts (by decide)).when _)).after _
  intro gap
  exact Attempt.pure_accounts rfl

private theorem checkSpanStyle_accounts (location : String) (computed : Computed) :
    (checkSpanStyle location computed).Accounts styleDefects := by
  have given {rule : String → Verdict} (name : String)
      (each : ∀ value, (rule value).Accounts styleDefects) :
      ((computed.find? name).elim silent rule).Accounts styleDefects := by
    cases computed.find? name with
    | none => exact silent_accounts
    | some value => exact each value
  refine Accounts.append (Accounts.append ?_ ?_) ?_
  · exact given "color" fun _ => (fail_accounts (by decide)).when _
  · exact given "backgroundColor" fun _ => (fail_accounts (by decide)).when _
  · exact given "fontStyle" fun _ => (remark_accounts rfl).when _

private theorem checkStyleOf_accounts (presentation : Presentation) (parent : Computed)
    (element : Element) :
    (checkStyleOf presentation parent element).Accounts styleDefects true Prod.fst := by
  rw [checkStyleOf]
  dsimp only
  apply Attempt.Accounts.bind
  · exact Attempt.judge_accounts
      (((checkApplicability_accounts _ _).mono (by decide)).when _)
  intro applies
  apply Attempt.Accounts.bind
  · exact Attempt.judge_accounts ((checkBlockBackground_accounts _ _ _).when _)
  intro background
  apply Attempt.Accounts.bind
  · exact Attempt.judge_accounts
      ((computeAll_accounts _ _ _ _).mono (by decide))
  intro computes
  apply (checkFont_accounts presentation.sizes _ _).choice
  intro font
  apply (checkLines_accounts presentation.sizes _ _).choice
  intro lines
  apply Attempt.Accounts.bind
  · exact Attempt.judge_accounts ((checkSpanStyle_accounts _ _).when _)
  intro span
  exact Attempt.pure_accounts rfl

mutual

private theorem checkStylesWithin_accounts (presentation : Presentation) (parent : Computed) :
    ∀ element,
      (checkStylesWithin presentation parent element).Accounts styleDefects true id
  | ⟨tag, attributes, children, text, tail⟩ => by
      rw [checkStylesWithin]
      apply Attempt.Accounts.bind (checkStyleOf_accounts presentation parent _)
      intro ⟨own, computed⟩
      apply Attempt.Accounts.bind
        ((checkStylesOfAll_accounts presentation computed children).after own)
      intro inner
      exact Attempt.pure_accounts rfl

private theorem checkStylesOfAll_accounts (presentation : Presentation) (parent : Computed) :
    ∀ elements,
      (checkStylesOfAll presentation parent elements).Accounts styleDefects true id
  | [] => by
      rw [checkStylesOfAll]
      exact Attempt.pure_accounts rfl
  | first :: rest => by
      rw [checkStylesOfAll]
      apply Attempt.Accounts.bind (checkStylesWithin_accounts presentation parent first)
      intro own
      apply Attempt.Accounts.bind
        ((checkStylesOfAll_accounts presentation parent rest).after own)
      intro others
      exact Attempt.pure_accounts rfl

end

private theorem resolveReferences_accounts (styles : Option (Catalogue Element))
    (root : Element) :
    (resolveReferences styles root).Accounts (styleCharges styles.isSome) true
      fun resolved => resolved.1 && styles.isSome := by
  cases styles with
  | none =>
      apply Attempt.Accounts.bind (Attempt.note_accounts
        (Log.within_singleton fun _ => by decide))
      intro _
      exact Attempt.pure_accounts rfl
  | some styles =>
      have stray := strayReferences_isClean styles root
      apply Attempt.Accounts.bind
        (Attempt.note_accounts (Log.within_of_isClean stray styleDefects))
      intro _
      apply Attempt.Accounts.bind
        (Attempt.judge_accounts ((resolveAll_accounts styles).mono (by decide)))
      intro valid
      exact Attempt.pure_accounts (by simp [stray])

private theorem checkBodyStyles_accounts (presentation : Presentation) (root : Element) :
    (checkBodyStyles presentation root).Accounts styleDefects true id := by
  unfold checkBodyStyles
  dsimp only
  split
  · exact checkStylesWithin_accounts presentation .empty _
  · exact Attempt.judge_accounts (fail_accounts (by decide))

theorem checkStyleReferences_accounts (root : Element) (context : Context) :
    (checkStyleReferences root context).attempt.Accounts
      (styleCharges context.styles.isSome) true id := by
  rw [checkStyleReferences]
  rw [Run.context_bind]
  refine (?_ : Run.Accounts (styleCharges context.styles.isSome) true id _) context
  apply Run.Accounts.bind
    (Run.ofAttempt_accounts (resolveReferences_accounts context.styles root))
  intro ⟨resolves, resolved⟩
  dsimp only
  apply Run.Accounts.bind
    (((Run.ofAttempt_accounts (checkBodyStyles_accounts _ root)).mono
      (subset_omitting _ _ _)).after _)
  intro styled
  have ends : (do
      if resolves && styled && context.styles.isSome then
        Run.note [.pass .ttmlStyling "document" "Style references and attributes checked"]
      return resolves && styled && context.styles.isSome : Run Bool).Accounts
        (styleCharges context.styles.isSome)
        (resolves && context.styles.isSome && styled) id := by
    rw [Bool.and_right_comm]
    exact Run.affirmed_accounts rfl
  split
  · exact Run.Accounts.bind (Run.change_accounts _) fun _ => ends
  · exact ends

theorem checkStyleReferences_sound (root : Element) :
    (checkStyleReferences root).Sound (styleCharges false) :=
  fun context => (checkStyleReferences_accounts root context).mono (omitting_subset _ _ _)

theorem checkInlineStyles_accounts (uri : String) (root : Element) :
    (checkInlineStyles uri root).Accounts (defects [.ebuttdInlineStylingConstraint]) :=
  Accounts.affirm
    (forEach_accounts fun _ => forEach_accounts fun _ => fail_accounts (by decide)) rfl

/-! ## Regions -/

def regionDefects : List Charge := defects [
  .ttmlElementBody, .ttmlLayoutRegionAssociation, .ttmlAttributeStylingAttribute,
  .ebuttdRegionAttributesConstraint, .ebuttdRegionPositionConstraint,
  .bbcRegionPositionConstraint, .bbcRegionBackgroundColorConstraint,
  .bbcRegionOverflowConstraint]

abbrev regionCharges (known : Bool) : List Charge :=
  omitting known .ttmlElementRegion regionDefects

section

variable (used : Bool)

private theorem checkRegionSpecified_accounts (uri location : String)
    (specified : Specified) :
    ((checkRegionSpecified (.weighed used) uri location specified).weighed
      used).Accounts regionDefects := by
  unfold checkRegionSpecified
  dsimp only
  rw [weighed_append, weighed_forEach, weighed_forEach]
  apply Accounts.append
  · exact forEach_accounts fun _ => against_weighed_accounts (by decide)
  · apply forEach_accounts
    intro name
    rw [weighed_remark]
    exact remark_accounts rfl

private theorem checkRegionEdges_accounts (location : String) (origin extent : Float × Float) :
    ((checkRegionEdges (.weighed used) location origin extent).weighed
      used).Accounts regionDefects := by
  rw [checkRegionEdges]
  dsimp only
  rw [weighed_append, weighed_append, weighed_when, weighed_when, weighed_when]
  apply Accounts.append (Accounts.append ?_ ?_) ?_
  · exact (against_weighed_accounts (by decide)).when _
  · exact (against_weighed_accounts (by decide)).when _
  · exact (against_weighed_accounts (by decide)).when _

private theorem checkRegionPosition_accounts (location : String) (computed : Computed) :
    ((checkRegionPosition (.weighed used) location computed).weighed
      used).Accounts regionDefects := by
  rw [checkRegionPosition]
  dsimp only
  split
  · exact checkRegionEdges_accounts used location _ _
  · exact against_weighed_accounts (by decide)

private theorem checkRegionComputed_accounts (location : String) (computed : Computed) :
    ((checkRegionComputed (.weighed used) location computed).weighed
      used).Accounts regionDefects := by
  unfold checkRegionComputed
  dsimp only
  rw [weighed_append, weighed_append, weighed_when, weighed_when]
  apply Accounts.append (Accounts.append ?_ ?_) ?_
  · exact (against_weighed_accounts (by decide)).when _
  · exact checkRegionPosition_accounts used location computed
  · exact (against_weighed_accounts (by decide)).when _

end

private theorem checkRegion_accounts (survey : RegionSurvey) (id : String)
    (region : Element) : (checkRegion survey id region).1.Accounts regionDefects := by
  rw [checkRegion]
  dsimp only
  apply Accounts.append (Accounts.append ?_ ?_) ?_
  · exact (remark_accounts rfl).when _
  · cases survey.dropped.find? id with
    | none => exact silent_accounts
    | some count => exact remark_accounts rfl
  · change (weighed (survey.named.contains id) (_ ++ _ ++ _)).Accounts _
    rw [weighed_append, weighed_append]
    apply Accounts.append (Accounts.append ?_ ?_) ?_
    · exact checkRegionSpecified_accounts _ _ _ _
    · exact (computeAll_weighed_accounts _ _ _ _ _).mono (by decide)
    · exact checkRegionComputed_accounts _ _ _

private theorem checkMissingRegions_accounts (regions : Catalogue Element) (kind : String)
    (counts : Catalogue Nat) :
    (checkMissingRegions regions kind counts).Accounts regionDefects :=
  forEach_accounts fun _ => fail_accounts (by decide)

private theorem checkRegions_accounts (uri : String) (specified : Catalogue Specified)
    (regions : Catalogue Element) (uses : List RegionUse) :
    (checkRegions uri specified regions uses).1.Accounts regionDefects := by
  rw [checkRegions]
  dsimp only
  apply Accounts.affirm _ rfl
  apply Accounts.append (Accounts.append (Accounts.append ?_ ?_) ?_) ?_
  · apply all_accounts
    intro verdict member
    rw [List.map_map] at member
    rcases List.mem_map.mp member with ⟨⟨id, region⟩, _, rfl⟩
    exact checkRegion_accounts _ id region
  · exact checkMissingRegions_accounts regions _ _
  · exact checkMissingRegions_accounts regions _ _
  · exact (fail_accounts (by decide)).when _

theorem checkRegionReferences_accounts (root : Element) (context : Context) :
    (checkRegionReferences root context).attempt.Accounts
      (regionCharges context.regions.isSome) true id := by
  rw [checkRegionReferences]
  rw [Run.context_bind]
  refine (?_ : Run.Accounts (regionCharges context.regions.isSome) true id _) context
  have charged {verdict : Verdict} (accounts : verdict.Accounts regionDefects) :
      (Run.judge verdict).Sound (regionCharges context.regions.isSome) :=
    Run.judge_sound (accounts.mono (subset_omitting _ _ _))
  dsimp only
  split
  · apply Run.Accounts.bind (Run.change_accounts _)
    intro _
    split
    next unknown =>
      rw [unknown]
      exact Run.judge_sound (skip_accounts (by decide))
    next regions _ =>
      apply Run.Accounts.bind (Run.change_accounts _)
      intro _
      exact charged (checkRegions_accounts _ _ _ _)
  · exact charged (fail_accounts (by decide))

theorem checkRegionReferences_sound (root : Element) :
    (checkRegionReferences root).Sound (regionCharges false) :=
  fun context => (checkRegionReferences_accounts root context).mono (omitting_subset _ _ _)

end Check

end TimedText
