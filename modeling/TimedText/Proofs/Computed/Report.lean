import TimedText.Proofs.Computed.Outcome
/-!
What is reported of styles. An attribute has no value, and is reported, if what is specified for
it is malformed. That is all that is reported, except of heights: a percentage of a size that
has overflown cannot be computed, and neither can a line height in percent where the font size
of the same element has no value.
-/

namespace TimedText.Style

/-! ## Computed values -/

/-- Values that come of computation, in any settings, from nothing. -/
inductive Produced : Computed → Prop
  | empty : Produced .empty
  | next {parent : Computed} (uri : String) (specified : Specified) (setting : Setting)
      (status : Status) (produced : Produced parent) :
      Produced (computeAll uri specified parent setting status).computed

theorem Produced.isSize {computed : Computed} (produced : Produced computed) :
    ∀ text ∈ computed.find? "fontSize", IsSize text := by
  induction produced with
  | empty => nofun
  | next uri specified setting status produced induction =>
      intro text here
      rw [Option.mem_def, ← show sizeProperty.name = "fontSize" from rfl,
        computeAll_find?_eq_some_iff sizeProperty_mem] at here
      by_cases wellFormed : sizeProperty.IsWellFormed uri specified
      · rw [outcome_sizeProperty wellFormed] at here
        refine computeFontSize_isSize ?_ wellFormed here
        exact fun text inherited => induction text (eq_some_of_present inherited)
      · rw [outcome_of_malformed wellFormed] at here
        cases here

/-! ## Objections -/

def Property.IsShare (property : Property) (uri : String) (specified : Specified) : Prop :=
  ∃ text ∈ property.given? uri specified, isPercentage text = true

instance (property : Property) (uri : String) (specified : Specified) :
    Decidable (property.IsShare uri specified) :=
  inferInstanceAs (Decidable (∃ text ∈ property.given? uri specified, _))

def unreadableBasis (basis : String) : Fault :=
  .style s!"Basis value {basis} is not a valid number"

/-- Why a percentage cannot be computed from the font size that is inherited and the one that
has been computed for the same element, if there are any. -/
inductive Obstacle : Option String → Option String → Rule → Fault → Prop
  | inherited {basis : String} {size : Option String} (overflown : HasOverflown basis) :
      Obstacle (some basis) size .fontSize (unreadableBasis basis)
  | own {size : String} {inherited : Option String} (overflown : HasOverflown size) :
      Obstacle inherited (some size) .lineHeight (unreadableBasis size)
  | unsized {inherited : Option String} :
      Obstacle inherited none .lineHeight (.internal "lineHeight computed before fontSize")

private theorem Obstacle.scales {inherited size : Option String} {rule : Rule} {fault : Fault}
    (obstacle : Obstacle inherited size rule fault) : rule = .fontSize ∨ rule = .lineHeight := by
  cases obstacle with
  | inherited => exact .inl rfl
  | own => exact .inr rfl
  | unsized => exact .inr rfl

private theorem Obstacle.overflown {inherited size : Option String} {fault : Fault}
    (obstacle : Obstacle inherited size .fontSize fault) :
    ∃ basis ∈ inherited, HasOverflown basis := by
  cases obstacle with
  | inherited overflown => exact ⟨_, rfl, overflown⟩

/-- Why a property has no value: what is specified for it is malformed, or a percentage that
cannot be computed. -/
def Property.Objection (property : Property) (uri : String) (specified : Specified)
    (inherited size : Option String) (fault : Fault) : Prop :=
  (¬property.IsWellFormed uri specified ∧ fault = .style "Value has invalid format") ∨
    (property.IsShare uri specified ∧ Obstacle inherited size property.rule fault)

section

variable {setting : Setting} {specified parent inherited size : Option String}
  {text basis height initial : String} {fault : Fault}

private theorem percentOf_eq_error_iff (percentage : isPercentage text = true)
    (isSize : IsSize basis) :
    percentOf text basis = .error fault ↔ HasOverflown basis ∧ fault = unreadableBasis basis := by
  by_cases overflown : HasOverflown basis
  · rw [percentOf_of_hasOverflown percentage overflown, Except.error.injEq]
    exact ⟨fun same => ⟨overflown, same.symm⟩, fun both => both.2.symm⟩
  · rcases percentOf_of_isSize percentage isSize overflown with ⟨value, computed, _⟩
    rw [computed]
    exact iff_of_false nofun fun both => overflown both.1

private theorem computeFontSize_eq_error_iff
    (usable : cellHeight setting.cellResolution = .ok height)
    (percentage : ∀ text ∈ specified, isPercentage text = true)
    (isSize : ∀ text ∈ parent, IsSize text) :
    computeFontSize setting specified parent = .error fault ↔
      (∃ text ∈ specified, isPercentage text = true) ∧
        Obstacle parent size .fontSize fault := by
  rw [computeFontSize_eq usable percentage]
  cases specified with
  | none => exact iff_of_false nofun nofun
  | some text =>
      have share : ∃ own ∈ some text, isPercentage own = true := ⟨text, rfl, percentage text rfl⟩
      rw [and_iff_right share]
      cases parent with
      | none =>
          rcases cellHeight_isSize usable with ⟨isSize, within⟩
          rw [Option.getD_none, percentOf_eq_error_iff (percentage text rfl) isSize]
          exact iff_of_false (fun both => within both.1) nofun
      | some basis =>
          rw [Option.getD_some, percentOf_eq_error_iff (percentage text rfl) (isSize basis rfl)]
          constructor
          · rintro ⟨overflown, rfl⟩
            exact .inherited overflown
          · intro obstacle
            cases obstacle with
            | inherited overflown => exact ⟨overflown, rfl⟩

private theorem computeLineHeight_eq_error_iff
    (wellFormed : ∀ text ∈ specified, (text == "normal" || isPercentage text) = true)
    (isSize : ∀ text ∈ setting.fontSize, IsSize text) :
    computeLineHeight setting specified parent initial = .error fault ↔
      (∃ text ∈ specified, isPercentage text = true) ∧
        Obstacle inherited setting.fontSize .lineHeight fault := by
  cases specified with
  | none => simp [computeLineHeight]
  | some text =>
      rw [computeLineHeight]
      split
      next usual =>
        rw [beq_iff_eq.mp usual]
        have word : isPercentage "normal" = false := by decide
        simp [word]
      next unusual =>
        have percentage : isPercentage text = true :=
          (Bool.or_eq_true_iff.mp (wellFormed text rfl)).resolve_left unusual
        have share : ∃ own ∈ some text, isPercentage own = true := ⟨text, rfl, percentage⟩
        rw [and_iff_right share]
        split
        next size sized =>
          rw [percentOf_eq_error_iff percentage (isSize size sized), sized]
          constructor
          · rintro ⟨overflown, rfl⟩
            exact .own overflown
          · intro obstacle
            cases obstacle with
            | own overflown => exact ⟨overflown, rfl⟩
        next unsized =>
          rw [unsized, Except.error.injEq]
          constructor
          · rintro rfl
            exact .unsized
          · intro obstacle
            cases obstacle with
            | unsized => rfl

end

section

variable {uri : String} {specified : Specified} {parent : Computed} {setting : Setting}
  {cellResolution inherited size : Option String} {height : String} {status : Status}
  {property : Property} {fault : Fault}

theorem Produced.present_find? (produced : Produced parent) :
    present (parent.find? "fontSize") = parent.find? "fontSize" := by
  cases found : parent.find? "fontSize" with
  | none => rfl
  | some text => exact (produced.isSize text found).isHeight.present_eq

private theorem isWellFormed_of_isShare (member : property ∈ properties)
    (share : property.IsShare uri specified)
    (obstacle : Obstacle inherited size property.rule fault) :
    property.IsWellFormed uri specified := by
  rcases share with ⟨text, given, percentage⟩
  have accepted : property.accepts text = true := by
    rcases obstacle.scales with rule | rule
    · rw [eq_sizeProperty member rule]
      exact percentage
    · rw [eq_lineProperty member rule]
      exact Bool.or_eq_true_iff.mpr (.inr percentage)
  intro other same
  rw [Option.mem_unique same given, accepted]

private theorem fault?_eq_some_iff_outcome :
    property.fault? uri specified parent setting = some fault ↔
      property.outcome uri specified parent setting = .error fault := by
  rw [Property.fault?]
  cases property.outcome uri specified parent setting with
  | ok value => simp
  | error other => simp

private theorem fault?_eq_some_iff (member : property ∈ properties) (produced : Produced parent)
    (usable : cellHeight setting.cellResolution = .ok height)
    (isSize : ∀ text ∈ setting.fontSize, IsSize text) :
    property.fault? uri specified parent setting = some fault ↔
      property.Objection uri specified (parent.find? "fontSize") setting.fontSize fault := by
  rw [fault?_eq_some_iff_outcome, Property.Objection]
  by_cases wellFormed : property.IsWellFormed uri specified
  · rw [or_iff_right fun both => both.1 wellFormed]
    cases rule : property.rule with
    | uninherited =>
        rw [outcome_uninherited wellFormed rule]
        exact iff_of_false nofun fun both => absurd both.2.scales (by decide)
    | inherited =>
        rw [outcome_inherited wellFormed rule]
        exact iff_of_false nofun fun both => absurd both.2.scales (by decide)
    | fontSize =>
        cases eq_sizeProperty member rule
        rw [outcome_sizeProperty wellFormed, produced.present_find?]
        exact computeFontSize_eq_error_iff usable wellFormed produced.isSize
    | lineHeight =>
        cases eq_lineProperty member rule
        rw [outcome_lineProperty wellFormed]
        exact computeLineHeight_eq_error_iff wellFormed isSize
  · rw [outcome_of_malformed wellFormed, Except.error.injEq, and_iff_right wellFormed,
      or_iff_left fun both => wellFormed (isWellFormed_of_isShare member both.1 both.2)]
    exact eq_comm

end

/-! ## Reports -/

def heights (size line : String) : Specified where
  entries := [(Name.qualified Vocabulary.styling "fontSize", size),
    (Name.qualified Vocabulary.styling "lineHeight", line)]
  distinct := by
    change [Name.qualified Vocabulary.styling "fontSize",
      Name.qualified Vocabulary.styling "lineHeight"].Nodup
    decide

def malformedFindings (uri : String) (specified : Specified) (status : Status) : Log :=
  (properties.filter fun property => ¬property.IsWellFormed uri specified).map
    (·.complaint uri specified status (.style "Value has invalid format"))

/-- The line height is a percentage, and the font size that it should be taken of malformed. -/
def IsStarved (uri : String) (specified : Specified) : Prop :=
  ¬sizeProperty.IsWellFormed uri specified ∧ lineProperty.IsShare uri specified

instance (uri : String) (specified : Specified) : Decidable (IsStarved uri specified) :=
  inferInstanceAs (Decidable (_ ∧ _))

section

variable {uri : String} {specified : Specified} {parent : Computed}
  {cellResolution inherited size : Option String} {height : String} {status : Status}
  {property : Property} {fault : Fault}

private theorem malformedFindings_eq :
    malformedFindings uri specified status = properties.filterMap fun property =>
      if property.IsWellFormed uri specified then none
      else some (property.complaint uri specified status (.style "Value has invalid format")) := by
  rw [malformedFindings, ← List.filterMap_eq_map', List.filterMap_filter]
  simp only [decide_not, Bool.not_eq_true', decide_eq_false_iff_not, ite_not]

theorem computeAll_fault?_eq_some_iff (member : property ∈ properties)
    (produced : Produced parent) (usable : cellHeight cellResolution = .ok height) :
    property.fault? uri specified parent
        (computeAll uri specified parent ⟨cellResolution, none⟩ status).setting = some fault ↔
      property.Objection uri specified (parent.find? "fontSize")
        ((computeAll uri specified parent ⟨cellResolution, none⟩ status).computed.find?
          "fontSize") fault := by
  rw [computeAll_setting rfl]
  exact fault?_eq_some_iff member produced usable (produced.next _ _ _ _).isSize

theorem find?_fontSize_eq_none_iff (produced : Produced parent)
    (usable : cellHeight cellResolution = .ok height)
    (within : ∀ text ∈ parent.find? "fontSize", ¬HasOverflown text) :
    (computeAll uri specified parent ⟨cellResolution, none⟩ status).computed.find? "fontSize"
        = none ↔ ¬sizeProperty.IsWellFormed uri specified := by
  rw [← show sizeProperty.name = "fontSize" from rfl,
    computeAll_find?_eq_none_iff sizeProperty_mem]
  constructor
  · rintro ⟨fault, wrong⟩
    rcases (computeAll_fault?_eq_some_iff sizeProperty_mem produced usable).mp wrong with
      ⟨malformed, _⟩ | ⟨_, obstacle⟩
    · exact malformed
    · rcases Obstacle.overflown obstacle with ⟨basis, handedDown, overflown⟩
      exact absurd overflown (within basis handedDown)
  · intro malformed
    exact ⟨_, (computeAll_fault?_eq_some_iff sizeProperty_mem produced usable).mpr
      (.inl ⟨malformed, rfl⟩)⟩

private theorem objection_iff (within : ∀ text ∈ inherited, ¬HasOverflown text)
    (finite : ∀ text ∈ size, ¬HasOverflown text) :
    property.Objection uri specified inherited size fault ↔
      (¬property.IsWellFormed uri specified ∧ fault = .style "Value has invalid format") ∨
        (property.rule = .lineHeight ∧ property.IsShare uri specified ∧ size = none ∧
          fault = .internal "lineHeight computed before fontSize") := by
  refine or_congr_right ?_
  constructor
  · rintro ⟨share, obstacle⟩
    generalize property.rule = rule at obstacle ⊢
    cases obstacle with
    | inherited overflown => exact absurd overflown (within _ rfl)
    | own overflown => exact absurd overflown (finite _ rfl)
    | unsized => exact ⟨rfl, share, rfl, rfl⟩
  · rintro ⟨rule, share, rfl, rfl⟩
    exact ⟨share, rule ▸ .unsized⟩

private theorem computeAll_fault?_of_within (member : property ∈ properties)
    (produced : Produced parent) (usable : cellHeight cellResolution = .ok height)
    (within : ∀ text ∈ parent.find? "fontSize", ¬HasOverflown text)
    (finite : ∀ text ∈ (computeAll uri specified parent ⟨cellResolution, none⟩
      status).computed.find? "fontSize", ¬HasOverflown text) :
    property.fault? uri specified parent
        (computeAll uri specified parent ⟨cellResolution, none⟩ status).setting = some fault ↔
      (¬property.IsWellFormed uri specified ∧ fault = .style "Value has invalid format") ∨
        (property.rule = .lineHeight ∧ property.IsShare uri specified ∧
          ¬sizeProperty.IsWellFormed uri specified ∧
          fault = .internal "lineHeight computed before fontSize") := by
  rw [computeAll_fault?_eq_some_iff member produced usable, objection_iff within finite,
    find?_fontSize_eq_none_iff produced usable within]

private theorem starved_not_mem_malformedFindings :
    property.complaint uri specified status (.internal "lineHeight computed before fontSize") ∉
      malformedFindings uri specified status := by
  intro found
  rcases List.mem_map.mp found with ⟨other, _, here⟩
  have messages : (Fault.style "Value has invalid format").message =
      (Fault.internal "lineHeight computed before fontSize").message :=
    congrArg Finding.message here
  exact absurd messages (by decide)

theorem findings_eq_malformedFindings_iff (produced : Produced parent)
    (usable : cellHeight cellResolution = .ok height)
    (within : ∀ text ∈ parent.find? "fontSize", ¬HasOverflown text)
    (finite : ∀ text ∈ (computeAll uri specified parent ⟨cellResolution, none⟩
      status).computed.find? "fontSize", ¬HasOverflown text) :
    (computeAll uri specified parent ⟨cellResolution, none⟩ status).verdict.findings
        = malformedFindings uri specified status ↔ ¬IsStarved uri specified := by
  have faults {property : Property} (member : property ∈ properties) (fault : Fault) :=
    @computeAll_fault?_of_within uri specified parent cellResolution height status property fault
      member produced usable within finite
  rw [computeAll_findings]
  constructor
  · rintro same ⟨malformed, share⟩
    have starved := (faults lineProperty_mem _).mpr (.inr ⟨rfl, share, malformed, rfl⟩)
    apply @starved_not_mem_malformedFindings uri specified status lineProperty
    rw [← same]
    exact List.mem_filterMap.mpr ⟨_, lineProperty_mem, congrArg (Option.map _) starved⟩
  · intro fed
    rw [malformedFindings_eq]
    refine List.filterMap_congr fun property member => ?_
    rw [Property.complaint?]
    split
    next wellFormed =>
      rw [Option.map_eq_none_iff, Option.eq_none_iff_forall_ne_some]
      intro fault wrong
      rcases (faults member fault).mp wrong with ⟨malformed, _⟩ | ⟨rule, share, malformed, _⟩
      · exact malformed wellFormed
      · exact fed ⟨malformed, eq_lineProperty member rule ▸ share⟩
    next malformed =>
      rw [(faults member _).mpr (.inl ⟨malformed, rfl⟩)]
      rfl

/-- What is reported of styles is what there are objections to. As long as no font size has
overflown, this is each malformed value and nothing else, unless a line height is starved. -/
theorem computeAll_reports_malformed_iff (produced : Produced parent)
    (usable : cellHeight cellResolution = .ok height) :
    let computation := computeAll uri specified parent ⟨cellResolution, none⟩ status
    let inherited := parent.find? "fontSize"
    let size := computation.computed.find? "fontSize"
    computation.verdict.findings = properties.filterMap
        (·.complaint? uri specified parent status computation.setting) ∧
      (∀ property ∈ properties, ∀ fault,
        property.fault? uri specified parent computation.setting = some fault ↔
          property.Objection uri specified inherited size fault) ∧
      ((∀ text ∈ inherited, ¬HasOverflown text) → (∀ text ∈ size, ¬HasOverflown text) →
        (computation.verdict.findings = malformedFindings uri specified status ↔
          ¬IsStarved uri specified)) := by
  refine ⟨computeAll_findings, fun property member fault => ?_, ?_⟩
  · exact computeAll_fault?_eq_some_iff member produced usable
  · exact findings_eq_malformedFindings_iff produced usable

theorem computeAll_reports_malformed_iff_cells :
    let specified := heights "1c" "125%"
    Produced .empty ∧ (∃ height, cellHeight none = .ok height) ∧
      (computeAll Vocabulary.core specified .empty ⟨none, none⟩ .fail).verdict.findings ≠
        malformedFindings Vocabulary.core specified .fail := by
  intro specified
  have sized : (computeAll Vocabulary.core specified .empty ⟨none, none⟩ .fail).computed.find?
      "fontSize" = none := by decide +kernel
  have reported := (@computeAll_reports_malformed_iff Vocabulary.core specified .empty none _
    .fail .empty rfl).2.2 nofun (by rw [sized]; nofun)
  exact ⟨.empty, ⟨_, rfl⟩, reported.not.mpr (not_not.mpr (by decide +kernel))⟩

end

end TimedText.Style
