import TimedText.Proofs.Computed.Size
/-!
What comes of computing attributes. The attributes are computed one after the other, but no two
share a name, and only the line height depends on what comes before it. So each has the outcome
that it has on its own, in the setting that is left in the end.
-/

namespace TimedText.Style

/-! ## One attribute -/

def Property.given? (property : Property) (uri : String) (specified : Specified) :
    Option String :=
  present (specified.find? (property.qualifiedName uri))

def Property.outcome (property : Property) (uri : String) (specified : Specified)
    (parent : Computed) (setting : Setting) : Except Fault String :=
  property.computeChecked setting (specified.find? (property.qualifiedName uri))
    (parent.find? property.name)

def Property.fault? (property : Property) (uri : String) (specified : Specified)
    (parent : Computed) (setting : Setting) : Option Fault :=
  match property.outcome uri specified parent setting with
  | .ok _ => none
  | .error fault => some fault

def Property.complaint (property : Property) (uri : String) (specified : Specified)
    (status : Status) (fault : Fault) : Finding where
  status := status
  code := .ttmlAttributeStylingAttribute
  location := property.qualifiedName uri ++ " styling attribute with value \""
    ++ (specified.find? (property.qualifiedName uri)).getD "None" ++ "\""
  message := fault.message

def Property.complaint? (property : Property) (uri : String) (specified : Specified)
    (parent : Computed) (status : Status) (setting : Setting) : Option Finding :=
  (property.fault? uri specified parent setting).map (property.complaint uri specified status)

section

variable {uri : String} {specified : Specified} {parent : Computed} {status : Status}
  {computation : Computation} {setting other : Setting} {property : Property} {name : String}

private theorem outcome_congr (cells : setting.cellResolution = other.cellResolution)
    (size : property.rule = .lineHeight → setting.fontSize = other.fontSize) :
    property.outcome uri specified parent setting
      = property.outcome uri specified parent other := by
  rw [Property.outcome, Property.outcome, Property.computeChecked, Property.computeChecked,
    Property.compute, Property.compute]
  cases rule : property.rule with
  | uninherited => rfl
  | inherited => rfl
  | fontSize => simp only [computeFontSize, cells]
  | lineHeight => simp only [computeLineHeight, size rule]

private theorem add_findings :
    (computation.add uri specified parent status property).verdict.findings =
      computation.verdict.findings ++
        (property.complaint? uri specified parent status computation.setting).toList := by
  rw [Computation.add, Property.complaint?, Property.fault?, Property.outcome]
  dsimp only
  cases property.computeChecked computation.setting _ _ with
  | ok value => exact (List.append_nil _).symm
  | error fault => rfl

private theorem add_cellResolution :
    (computation.add uri specified parent status property).setting.cellResolution
      = computation.setting.cellResolution := by
  rw [Computation.add]
  dsimp only
  split
  · rw [Property.settle]
    dsimp only
    split <;> rfl
  · rfl

private theorem add_setting (other : property.rule ≠ .fontSize) :
    (computation.add uri specified parent status property).setting = computation.setting := by
  rw [Computation.add]
  dsimp only
  split
  · rw [Property.settle]
    dsimp only
    split
    next same => exact absurd same other
    next => rfl
  · rfl

private theorem find?_add :
    (computation.add uri specified parent status property).computed.find? name =
      if property.name = name then
        (property.outcome uri specified parent computation.setting).toOption.or
          (computation.computed.find? name)
      else computation.computed.find? name := by
  rw [Computation.add, Property.outcome]
  dsimp only
  cases property.computeChecked computation.setting _ _ with
  | ok value => exact Catalogue.find?_insert _ _ _ _
  | error fault => exact (ite_self _).symm

end

/-! ## Attributes in order -/

/-- A property has another name than a later one, and does not depend on a font size that is
settled later. -/
private def Property.Precedes (first second : Property) : Prop :=
  first.name ≠ second.name ∧ (second.rule = .fontSize → first.rule ≠ .lineHeight)

instance (first second : Property) : Decidable (first.Precedes second) :=
  inferInstanceAs (Decidable (_ ∧ _))

private theorem properties_pairwise : properties.Pairwise Property.Precedes := by decide

section

variable {uri : String} {specified : Specified} {parent : Computed} {status : Status}

private theorem foldl_add_setting {members : List Property} (start : Computation)
    (others : ∀ property ∈ members, property.rule ≠ .fontSize) :
    (members.foldl (Computation.add uri specified parent status) start).setting
      = start.setting := by
  induction members generalizing start with
  | nil => rfl
  | cons property members induction =>
      rcases List.forall_mem_cons.mp others with ⟨own, further⟩
      exact (induction _ further).trans (add_setting own)

private theorem foldl_add_cellResolution (members : List Property) (start : Computation) :
    (members.foldl (Computation.add uri specified parent status) start).setting.cellResolution
      = start.setting.cellResolution := by
  induction members generalizing start with
  | nil => rfl
  | cons property members induction => exact (induction _).trans add_cellResolution

private theorem find?_foldl_add_of_unnamed {members : List Property} {name : String}
    (start : Computation) (unnamed : ∀ property ∈ members, property.name ≠ name) :
    (members.foldl (Computation.add uri specified parent status) start).computed.find? name
      = start.computed.find? name := by
  induction members generalizing start with
  | nil => rfl
  | cons property members induction =>
      rcases List.forall_mem_cons.mp unnamed with ⟨own, further⟩
      rw [List.foldl_cons, induction _ further, find?_add, if_neg own]

private theorem outcome_before {property : Property} {members : List Property} (start : Computation)
    (first : ∀ other ∈ members, property.Precedes other) :
    property.outcome uri specified parent start.setting =
      property.outcome uri specified parent
        ((property :: members).foldl (Computation.add uri specified parent status)
          start).setting := by
  refine outcome_congr (foldl_add_cellResolution _ start).symm fun line => ?_
  have others : ∀ other ∈ property :: members, other.rule ≠ .fontSize := by
    refine List.forall_mem_cons.mpr ⟨by rw [line]; decide, fun other member size => ?_⟩
    exact (first other member).2 size line
  rw [foldl_add_setting start others]

/-- Properties that come in order have the outcomes that they have in the last setting: the
faults among them are the findings, and the others the values. -/
private theorem foldl_add_of_pairwise {members : List Property} (start : Computation)
    (ordered : members.Pairwise Property.Precedes)
    (fresh : ∀ property ∈ members, start.computed.find? property.name = none) :
    let last := members.foldl (Computation.add uri specified parent status) start
    last.verdict.findings = start.verdict.findings ++
        members.filterMap (·.complaint? uri specified parent status last.setting) ∧
      ∀ property ∈ members, last.computed.find? property.name =
        (property.outcome uri specified parent last.setting).toOption := by
  induction members generalizing start with
  | nil => exact ⟨(List.append_nil _).symm, nofun⟩
  | cons property members induction =>
      rcases List.pairwise_cons.mp ordered with ⟨first, further⟩
      rcases List.forall_mem_cons.mp fresh with ⟨unset, unsetLater⟩
      have unnamed : ∀ other ∈ members, other.name ≠ property.name :=
        fun other member => (first other member).1.symm
      have freshLater : ∀ other ∈ members,
          (start.add uri specified parent status property).computed.find? other.name = none := by
        intro other member
        rw [find?_add, if_neg (unnamed other member).symm]
        exact unsetLater other member
      have own := @outcome_before uri specified parent status property members start first
      rcases induction _ further freshLater with ⟨findings, values⟩
      dsimp only
      refine ⟨?_, List.forall_mem_cons.mpr ⟨?_, values⟩⟩
      · rw [List.foldl_cons, findings, add_findings, List.append_assoc,
          List.filterMap_eq_flatMap_toList, List.filterMap_eq_flatMap_toList, List.flatMap_cons,
          Property.complaint?, Property.fault?, own]
        rfl
      · rw [← own, List.foldl_cons, find?_foldl_add_of_unnamed _ unnamed, find?_add, if_pos rfl,
          unset, Option.or_none]

end

/-! ## All attributes -/

section

variable {uri : String} {specified : Specified} {parent : Computed} {setting : Setting}
  {status : Status} {computation : Computation} {property : Property}

theorem computeAll_findings :
    (computeAll uri specified parent setting status).verdict.findings =
      properties.filterMap (·.complaint? uri specified parent status
        (computeAll uri specified parent setting status).setting) :=
  (foldl_add_of_pairwise ⟨.empty, setting, .silent⟩ properties_pairwise fun _ _ => rfl).1

private theorem computeAll_find? (member : property ∈ properties) :
    (computeAll uri specified parent setting status).computed.find? property.name =
      (property.outcome uri specified parent
        (computeAll uri specified parent setting status).setting).toOption :=
  (foldl_add_of_pairwise ⟨.empty, setting, .silent⟩ properties_pairwise fun _ _ => rfl).2
    property member

theorem computeAll_find?_eq_some_iff (member : property ∈ properties) {value : String} :
    (computeAll uri specified parent setting status).computed.find? property.name = some value ↔
      property.outcome uri specified parent
        (computeAll uri specified parent setting status).setting = .ok value := by
  rw [computeAll_find? member]
  cases property.outcome uri specified parent _ with
  | ok result => rw [Except.toOption, Option.some_inj, Except.ok.injEq]
  | error fault => exact iff_of_false nofun nofun

theorem computeAll_find?_eq_none_iff (member : property ∈ properties) :
    (computeAll uri specified parent setting status).computed.find? property.name = none ↔
      ∃ fault, property.fault? uri specified parent
        (computeAll uri specified parent setting status).setting = some fault := by
  rw [computeAll_find? member, Property.fault?]
  cases property.outcome uri specified parent _ with
  | ok result => exact iff_of_false nofun nofun
  | error fault => exact iff_of_true rfl ⟨fault, rfl⟩

private def Computation.IsSettled (computation : Computation) : Prop :=
  computation.setting.fontSize = computation.computed.find? "fontSize"

private theorem Computation.IsSettled.add_isSettled (coherent : property.IsCoherent)
    (settled : computation.IsSettled) :
    (computation.add uri specified parent status property).IsSettled := by
  rw [IsSettled, find?_add]
  split
  next named =>
    rw [Computation.add, Property.outcome]
    dsimp only
    cases property.computeChecked computation.setting _ _ with
    | error fault => exact settled
    | ok value =>
        dsimp only
        rw [Property.settle, coherent.fontSize.mp named]
        rfl
  next other =>
    rw [add_setting fun rule => other (coherent.fontSize.mpr rule)]
    exact settled

theorem computeAll_setting (unsized : setting.fontSize = none) :
    (computeAll uri specified parent setting status).setting =
      ⟨setting.cellResolution,
        (computeAll uri specified parent setting status).computed.find? "fontSize"⟩ := by
  have settled : (computeAll uri specified parent setting status).IsSettled := by
    apply List.foldlRecOn (motive := Computation.IsSettled)
    · exact unsized
    · intro computation settled property member
      exact settled.add_isSettled (properties_coherent property member)
  rw [← settled, ← show _ = setting.cellResolution from
    foldl_add_cellResolution properties ⟨.empty, setting, .silent⟩]
  rfl

end

/-! ## Rules -/

/-- What is specified for a property, if anything, has the form that it should have. -/
def Property.IsWellFormed (property : Property) (uri : String) (specified : Specified) : Prop :=
  ∀ text ∈ property.given? uri specified, property.accepts text = true

instance (property : Property) (uri : String) (specified : Specified) :
    Decidable (property.IsWellFormed uri specified) :=
  inferInstanceAs (Decidable (∀ text ∈ property.given? uri specified, _))

def sizeProperty : Property :=
  ⟨.beside stylingFollowing, "fontSize", ["span"], isPercentage, "100%", .fontSize⟩

def lineProperty : Property :=
  ⟨.beside stylingFollowing, "lineHeight", ["p"],
    fun text => text == "normal" || isPercentage text, "normal", .lineHeight⟩

private theorem filter_fontSize :
    properties.filter (fun property => property.rule == .fontSize) = [sizeProperty] := rfl

private theorem filter_lineHeight :
    properties.filter (fun property => property.rule == .lineHeight) = [lineProperty] := rfl

theorem sizeProperty_mem : sizeProperty ∈ properties :=
  (List.mem_filter.mp (filter_fontSize ▸ List.mem_singleton_self sizeProperty)).1

theorem lineProperty_mem : lineProperty ∈ properties :=
  (List.mem_filter.mp (filter_lineHeight ▸ List.mem_singleton_self lineProperty)).1

theorem eq_sizeProperty {property : Property} (member : property ∈ properties)
    (rule : property.rule = .fontSize) : property = sizeProperty :=
  List.mem_singleton.mp (filter_fontSize ▸ List.mem_filter.mpr ⟨member, beq_iff_eq.mpr rule⟩)

theorem eq_lineProperty {property : Property} (member : property ∈ properties)
    (rule : property.rule = .lineHeight) : property = lineProperty :=
  List.mem_singleton.mp (filter_lineHeight ▸ List.mem_filter.mpr ⟨member, beq_iff_eq.mpr rule⟩)

section

variable {uri : String} {specified : Specified} {parent : Computed} {setting : Setting}
  {property : Property}

private theorem any_not_accepts_iff :
    (present (specified.find? (property.qualifiedName uri))).any
        (fun text => !property.accepts text) = true ↔ ¬property.IsWellFormed uri specified := by
  rw [Option.any_eq_true]
  simp [Property.IsWellFormed, Property.given?]

theorem outcome_of_malformed (malformed : ¬property.IsWellFormed uri specified) :
    property.outcome uri specified parent setting
      = .error (.style "Value has invalid format") := by
  rw [Property.outcome, Property.computeChecked, if_pos (any_not_accepts_iff.mpr malformed)]

private theorem outcome_of_isWellFormed (wellFormed : property.IsWellFormed uri specified) :
    property.outcome uri specified parent setting =
      property.compute setting (specified.find? (property.qualifiedName uri))
        (parent.find? property.name) := by
  rw [Property.outcome, Property.computeChecked,
    if_neg (any_not_accepts_iff.not.mpr (not_not.mpr wellFormed))]

theorem outcome_uninherited (wellFormed : property.IsWellFormed uri specified)
    (rule : property.rule = .uninherited) :
    property.outcome uri specified parent setting =
      .ok ((property.given? uri specified).getD property.initial) := by
  rw [outcome_of_isWellFormed wellFormed, Property.compute, rule]
  rfl

theorem outcome_inherited (wellFormed : property.IsWellFormed uri specified)
    (rule : property.rule = .inherited) :
    property.outcome uri specified parent setting =
      .ok (((property.given? uri specified).or (present (parent.find? property.name))).getD
        property.initial) := by
  rw [outcome_of_isWellFormed wellFormed, Property.compute, rule]
  rfl

theorem outcome_sizeProperty (wellFormed : sizeProperty.IsWellFormed uri specified) :
    sizeProperty.outcome uri specified parent setting =
      computeFontSize setting (sizeProperty.given? uri specified)
        (present (parent.find? "fontSize")) :=
  outcome_of_isWellFormed wellFormed

theorem outcome_lineProperty (wellFormed : lineProperty.IsWellFormed uri specified) :
    lineProperty.outcome uri specified parent setting =
      computeLineHeight setting (lineProperty.given? uri specified)
        (present (parent.find? "lineHeight")) "normal" :=
  outcome_of_isWellFormed wellFormed

end

end TimedText.Style
