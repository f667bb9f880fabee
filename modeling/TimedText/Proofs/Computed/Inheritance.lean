import TimedText.Proofs.Computed.Report
/-!
Computed values along a line of elements, each of which inherits from the one around it. An
inherited value is the nearest one that is specified, an uninherited one does not depend on the
elements around, and a line height is fixed by the font size where it is specified.
-/

namespace TimedText.Style

open Number

/-- The values of the innermost element of a line, which comes first. -/
def Computed.along (uri : String) (cellResolution : Option String) (status : Status) :
    List Specified → Computed
  | [] => .empty
  | own :: outer =>
      (computeAll uri own (along uri cellResolution status outer) ⟨cellResolution, none⟩
        status).computed

/-- Everything that is specified along a line is well-formed, and no font size has overflown. -/
structure IsRegular (uri : String) (cellResolution : Option String) (status : Status)
    (line : List Specified) : Prop where
  wellFormed : ∀ own ∈ line, ∀ property ∈ properties, property.IsWellFormed uri own
  finite : ∀ outer, outer <:+ line →
    ∀ size ∈ (Computed.along uri cellResolution status outer).find? "fontSize",
      ¬HasOverflown size

section

variable {uri : String} {cellResolution : Option String} {status : Status}
  {line outer : List Specified} {own : Specified} {property : Property} {height text : String}

theorem along_produced (line : List Specified) :
    Produced (Computed.along uri cellResolution status line) := by
  induction line with
  | nil => exact .empty
  | cons own outer induction => exact induction.next uri own _ status

private theorem along_canonical (line : List Specified) :
    (Computed.along uri cellResolution status line).IsCanonical := by
  induction line with
  | nil => exact empty_canonical
  | cons own outer induction => exact computeAll_canonical induction rfl

theorem IsRegular.of_suffix (suffix : outer <:+ line)
    (regular : IsRegular uri cellResolution status line) :
    IsRegular uri cellResolution status outer where
  wellFormed := fun set member => regular.wellFormed set (suffix.subset member)
  finite := fun further within => regular.finite further (within.trans suffix)

theorem IsRegular.head (regular : IsRegular uri cellResolution status (own :: outer))
    (member : property ∈ properties) : property.IsWellFormed uri own :=
  regular.wellFormed own List.mem_cons_self property member

private theorem isRegular_nil : IsRegular uri cellResolution status [] where
  wellFormed := nofun
  finite := by
    intro outer suffix
    rw [List.suffix_nil.mp suffix]
    nofun

private theorem IsRegular.cons (regular : IsRegular uri cellResolution status outer)
    (wellFormed : ∀ property ∈ properties, property.IsWellFormed uri own)
    (finite : ∀ size ∈ (Computed.along uri cellResolution status (own :: outer)).find? "fontSize",
      ¬HasOverflown size) :
    IsRegular uri cellResolution status (own :: outer) where
  wellFormed := List.forall_mem_cons.mpr ⟨wellFormed, regular.wellFormed⟩
  finite := by
    intro further suffix
    rcases List.suffix_cons_iff.mp suffix with rfl | within
    · exact finite
    · exact regular.finite further within

theorem find?_along_eq_some_iff (member : property ∈ properties) :
    (Computed.along uri cellResolution status (own :: outer)).find? property.name = some text ↔
      property.outcome uri own (Computed.along uri cellResolution status outer)
        ⟨cellResolution,
          (Computed.along uri cellResolution status (own :: outer)).find? "fontSize"⟩
        = .ok text := by
  rw [Computed.along, computeAll_find?_eq_some_iff member, computeAll_setting rfl]

/-! ## Inherited values -/

private theorem initial_of_inherited : ∀ property ∈ properties, property.rule = .inherited →
    present (some property.initial) = some property.initial := by decide

private theorem present_given? {specified : Specified}
    (given : property.given? uri specified = some text) :
    present (some text) = some text := by
  have found := eq_some_of_present given
  rw [Property.given?, found] at given
  exact given

private theorem present_nearest
    (initial : present (some property.initial) = some property.initial) :
    present (some ((line.findSome? (property.given? uri)).getD property.initial)) =
      some ((line.findSome? (property.given? uri)).getD property.initial) := by
  cases nearest : line.findSome? (property.given? uri) with
  | none => exact initial
  | some text =>
      rcases List.exists_of_findSome?_eq_some nearest with ⟨own, _, given⟩
      exact present_given? given

theorem find?_along_of_inherited (member : property ∈ properties)
    (rule : property.rule = .inherited)
    (wellFormed : ∀ set ∈ own :: outer, property.IsWellFormed uri set) :
    (Computed.along uri cellResolution status (own :: outer)).find? property.name =
      some (((own :: outer).findSome? (property.given? uri)).getD property.initial) := by
  induction outer generalizing own with
  | nil =>
      have nothing : (Computed.along uri cellResolution status []).find? property.name = none :=
        rfl
      rw [find?_along_eq_some_iff member,
        outcome_inherited (wellFormed own List.mem_cons_self) rule, nothing, present,
        Option.filter_none, Option.or_none, List.findSome?_singleton]
  | cons next further induction =>
      rcases List.forall_mem_cons.mp wellFormed with ⟨head, tail⟩
      rw [find?_along_eq_some_iff member, outcome_inherited head rule, induction tail,
        present_nearest (initial_of_inherited property member rule)]
      cases given : property.given? uri own with
      | none =>
          rw [List.findSome?_cons_of_isNone (Option.isNone_iff_eq_none.mpr given)]
          rfl
      | some text =>
          rw [List.findSome?_cons_of_isSome (Option.isSome_of_eq_some given), given]
          rfl

theorem find?_along_of_uninherited (member : property ∈ properties)
    (rule : property.rule = .uninherited) (wellFormed : property.IsWellFormed uri own) :
    (Computed.along uri cellResolution status (own :: outer)).find? property.name =
      some ((property.given? uri own).getD property.initial) := by
  rw [find?_along_eq_some_iff member, outcome_uninherited wellFormed rule]

/-! ## Line heights -/

def heightOf (text size : String) : Except Fault String :=
  if text = "normal" then .ok text else percentOf text size

private theorem IsRegular.exists_size (regular : IsRegular uri cellResolution status (own :: outer))
    (usable : cellHeight cellResolution = .ok height) :
    ∃ size, (Computed.along uri cellResolution status (own :: outer)).find? "fontSize"
      = some size := by
  rw [← Option.ne_none_iff_exists']
  intro missing
  have malformed := (find?_fontSize_eq_none_iff (along_produced outer) usable
    (regular.finite outer (List.suffix_cons own outer))).mp missing
  exact malformed (regular.head sizeProperty_mem)

private theorem exists_heightOf {size : String} (accepted : lineProperty.accepts text = true)
    (isSize : IsSize size) (within : ¬HasOverflown size) :
    ∃ height, heightOf text size = .ok height := by
  rw [heightOf]
  split
  next usual => exact ⟨text, rfl⟩
  next unusual =>
    have percentage : isPercentage text = true :=
      (Bool.or_eq_true_iff.mp accepted).resolve_left (beq_iff_eq.not.mpr unusual)
    rcases percentOf_of_isSize percentage isSize within with ⟨height, computes, _⟩
    exact ⟨height, computes⟩

theorem find?_along_of_given (regular : IsRegular uri cellResolution status (own :: outer))
    (usable : cellHeight cellResolution = .ok height)
    (given : lineProperty.given? uri own = some text) :
    ∃ size height,
      (Computed.along uri cellResolution status (own :: outer)).find? "fontSize" = some size ∧
        heightOf text size = .ok height ∧
        (Computed.along uri cellResolution status (own :: outer)).find? "lineHeight"
          = some height := by
  have wellFormed := regular.head lineProperty_mem
  rcases regular.exists_size usable with ⟨size, sized⟩
  rcases exists_heightOf (wellFormed text given) ((along_produced _).isSize size sized)
    (regular.finite _ (List.suffix_refl _) size sized) with ⟨height, computes⟩
  refine ⟨size, height, sized, computes, (find?_along_eq_some_iff lineProperty_mem).mpr ?_⟩
  rw [outcome_lineProperty wellFormed, given, sized, ← computes, computeLineHeight, heightOf]
  simp only [beq_iff_eq]

private theorem present_lineHeight :
    present ((Computed.along uri cellResolution status line).find? "lineHeight") =
      (Computed.along uri cellResolution status line).find? "lineHeight" := by
  cases found : (Computed.along uri cellResolution status line).find? "lineHeight" with
  | none => rfl
  | some text =>
      rcases (along_canonical line "lineHeight" text found).lineHeight rfl with rfl | isHeight
      · decide
      · exact isHeight.present_eq

theorem find?_along_of_not_given (wellFormed : lineProperty.IsWellFormed uri own)
    (absent : lineProperty.given? uri own = none) :
    (Computed.along uri cellResolution status (own :: outer)).find? "lineHeight" =
      some (((Computed.along uri cellResolution status outer).find? "lineHeight").getD
        "normal") := by
  refine (find?_along_eq_some_iff lineProperty_mem).mpr ?_
  rw [outcome_lineProperty wellFormed, absent, present_lineHeight]
  rfl

theorem find?_along_append {inner : List Specified}
    (wellFormed : ∀ set ∈ inner, lineProperty.IsWellFormed uri set)
    (absent : ∀ set ∈ inner, lineProperty.given? uri set = none)
    (found : (Computed.along uri cellResolution status line).find? "lineHeight" = some height) :
    (Computed.along uri cellResolution status (inner ++ line)).find? "lineHeight"
      = some height := by
  induction inner with
  | nil => exact found
  | cons set inner induction =>
      rcases List.forall_mem_cons.mp wellFormed with ⟨head, tail⟩
      rcases List.forall_mem_cons.mp absent with ⟨here, further⟩
      rw [List.cons_append, find?_along_of_not_given head here, induction tail further]
      rfl

theorem find?_along_of_unspecified
    (wellFormed : ∀ set ∈ own :: outer, lineProperty.IsWellFormed uri set)
    (absent : ∀ set ∈ own :: outer, lineProperty.given? uri set = none) :
    (Computed.along uri cellResolution status (own :: outer)).find? "lineHeight"
      = some "normal" := by
  induction outer generalizing own with
  | nil =>
      rw [find?_along_of_not_given (wellFormed own List.mem_cons_self)
        (absent own List.mem_cons_self)]
      rfl
  | cons next further induction =>
      rcases List.forall_mem_cons.mp wellFormed with ⟨head, tail⟩
      rcases List.forall_mem_cons.mp absent with ⟨here, others⟩
      rw [find?_along_of_not_given head here, induction tail others]
      rfl

/-! ## Values along a line -/

/-- Along a regular line, an inherited value is the nearest one that is specified, or else the
initial one; one that is not inherited depends on the innermost element alone; and a line height
is the one that is computed where it is specified, for the font size there. -/
theorem find?_along_of_isRegular (usable : cellHeight cellResolution = .ok height)
    (regular : IsRegular uri cellResolution status (own :: outer)) :
    let computed := Computed.along uri cellResolution status (own :: outer)
    (∀ property ∈ properties, property.rule = .inherited → computed.find? property.name =
        some (((own :: outer).findSome? (property.given? uri)).getD property.initial)) ∧
      (∀ property ∈ properties, property.rule = .uninherited → computed.find? property.name =
        some ((property.given? uri own).getD property.initial)) ∧
      (∀ inner nearest further text, own :: outer = inner ++ nearest :: further →
        (∀ set ∈ inner, lineProperty.given? uri set = none) →
        lineProperty.given? uri nearest = some text →
        ∃ size height,
          (Computed.along uri cellResolution status (nearest :: further)).find? "fontSize"
              = some size ∧
            heightOf text size = .ok height ∧ computed.find? "lineHeight" = some height) ∧
      ((∀ set ∈ own :: outer, lineProperty.given? uri set = none) →
        computed.find? "lineHeight" = some "normal") := by
  have wellFormed {property : Property} (member : property ∈ properties) :
      ∀ set ∈ own :: outer, property.IsWellFormed uri set :=
    fun set here => regular.wellFormed set here property member
  refine ⟨fun property member rule => find?_along_of_inherited member rule (wellFormed member),
    fun property member rule => find?_along_of_uninherited member rule (regular.head member),
    ?_, find?_along_of_unspecified (wellFormed lineProperty_mem)⟩
  intro inner nearest further text line absent given
  rw [line] at regular wellFormed ⊢
  have own := regular.of_suffix (List.suffix_append inner (nearest :: further))
  rcases find?_along_of_given own usable given with ⟨size, height, sized, computes, found⟩
  refine ⟨size, height, sized, computes, find?_along_append (fun set here => ?_) absent found⟩
  exact wellFormed lineProperty_mem set (List.mem_append_left _ here)

theorem find?_along_of_isRegular_halved :
    let inner := heights "50%" ""
    let outer := heights "200%" "125%"
    (∃ height, cellHeight none = .ok height) ∧
      IsRegular Vocabulary.core none .fail [inner, outer] ∧
      ∃ size height,
        (Computed.along Vocabulary.core none .fail [outer]).find? "fontSize" = some size ∧
          heightOf "125%" size = .ok height ∧
          (Computed.along Vocabulary.core none .fail [inner, outer]).find? "lineHeight"
            = some height := by
  intro inner outer
  have regular : IsRegular Vocabulary.core none .fail [inner, outer] :=
    (isRegular_nil.cons (by decide +kernel) (by decide +kernel)).cons (by decide +kernel)
      (by decide +kernel)
  refine ⟨⟨_, rfl⟩, regular, (find?_along_of_isRegular rfl regular).2.2.1 [inner] outer []
    "125%" rfl (by decide) (by decide)⟩

end

/-! ## Undefined sizes -/

def endless : Numeral := ⟨'1' :: List.replicate 309 '0', none⟩

def endlessPercentage : String := String.ofList (endless.chars ++ ['%'])

private theorem endless_isWritten : endless.IsWritten where
  whole := by
    intro character member
    rcases List.mem_cons.mp member with rfl | zero
    · decide
    · rw [List.eq_of_mem_replicate zero]
      decide
  begun := List.cons_ne_nil _ _
  fraction := nofun
  ended := nofun

theorem numeralBefore?_endless : numeralBefore? '%' endlessPercentage.toList = some endless :=
  (numeralBefore?_eq_some_iff (by decide)).mpr ⟨endless_isWritten, String.toList_ofList⟩

theorem percentOf_endless : percentOf endlessPercentage "0.000000rh" = .ok "NaNrh" := by
  have cut : numeralAndUnit? "0.000000rh" = some (⟨['0'], some (List.replicate 6 '0')⟩, "rh") := by
    decide
  have undefined : fixedText 6 (endless.toFloat / 100 *
      Numeral.toFloat ⟨['0'], some (List.replicate 6 '0')⟩) = "NaN" := by decide +kernel
  rw [percentOf, numeralBefore?_endless, cut]
  dsimp only
  rw [undefined]
  rfl

theorem present_ofList (characters : List Char) (unit : Char) :
    present (some (String.ofList (characters ++ [unit]))) =
      some (String.ofList (characters ++ [unit])) := by
  refine Option.filter_some_pos ?_
  simp

theorem given?_size (size line : String) :
    sizeProperty.given? Vocabulary.core (heights size line) = present (some size) := rfl

private theorem given?_line (size line : String) :
    lineProperty.given? Vocabulary.core (heights size line) = present (some line) := rfl

theorem isWellFormed_of_heights {size line : String}
    (percentage : ∀ text ∈ present (some size), isPercentage text = true)
    (accepted : ∀ text ∈ present (some line), lineProperty.accepts text = true) :
    ∀ property ∈ properties, property.IsWellFormed Vocabulary.core (heights size line) := by
  have sizes : ∀ property ∈ properties, property.qualifiedName Vocabulary.core =
      Name.qualified Vocabulary.styling "fontSize" → property.rule = .fontSize := by
    decide +kernel
  have lines : ∀ property ∈ properties, property.qualifiedName Vocabulary.core =
      Name.qualified Vocabulary.styling "lineHeight" → property.rule = .lineHeight := by
    decide +kernel
  intro property member text given
  have found := Catalogue.mem_entries_of_find? (eq_some_of_present given)
  rcases List.mem_pair.mp found with same | same
  · cases eq_sizeProperty member (sizes property member (Prod.mk.inj same).1)
    rw [given?_size] at given
    exact percentage text given
  · cases eq_lineProperty member (lines property member (Prod.mk.inj same).1)
    rw [given?_line] at given
    exact accepted text given

section

variable {uri : String} {cellResolution : Option String} {status : Status}
  {outer : List Specified} {own : Specified} {text size : String}

theorem find?_fontSize_of_not_given (wellFormed : sizeProperty.IsWellFormed uri own)
    (absent : sizeProperty.given? uri own = none)
    (sized : (Computed.along uri cellResolution status outer).find? "fontSize" = some size) :
    (Computed.along uri cellResolution status (own :: outer)).find? "fontSize" = some size := by
  refine (find?_along_eq_some_iff sizeProperty_mem).mpr ?_
  rw [outcome_sizeProperty wellFormed, absent, (along_produced outer).present_find?, sized]
  rfl

theorem find?_lineHeight_of_hasOverflown (wellFormed : lineProperty.IsWellFormed uri own)
    (given : lineProperty.given? uri own = some text) (percentage : isPercentage text = true)
    (sized : (Computed.along uri cellResolution status (own :: outer)).find? "fontSize"
      = some size) (overflown : HasOverflown size) :
    (Computed.along uri cellResolution status (own :: outer)).find? "lineHeight" = none := by
  rw [Option.eq_none_iff_forall_ne_some]
  intro height found
  have computes := (find?_along_eq_some_iff lineProperty_mem).mp found
  have unusual : ¬(text == "normal") = true := fun usual => by
    rw [beq_iff_eq.mp usual] at percentage
    exact absurd percentage (by decide)
  rw [outcome_lineProperty wellFormed, given, sized, computeLineHeight, if_neg unusual] at computes
  cases (percentOf_of_hasOverflown percentage overflown).symm.trans computes

end

/-- An infinite share of nothing is an undefined font size, though no size along the line is
infinite. No line height can be computed for it, and the elements within get the usual one. -/
theorem along_undefined_size :
    let bare := heights "" ""
    let boundless := heights endlessPercentage "125%"
    let flat := heights "0%" ""
    let along := Computed.along Vocabulary.core none .fail
    (∀ own ∈ [bare, boundless, flat], ∀ property ∈ properties,
        property.IsWellFormed Vocabulary.core own) ∧
      (∃ height, cellHeight none = .ok height) ∧
      (∀ outer, outer <:+ [bare, boundless, flat] →
        (along outer).find? "fontSize" ≠ some "infrh") ∧
      lineProperty.given? Vocabulary.core bare = none ∧
      lineProperty.given? Vocabulary.core boundless = some "125%" ∧
      (¬∃ size height, (along [boundless, flat]).find? "fontSize" = some size ∧
        heightOf "125%" size = .ok height) ∧
      (along [bare, boundless, flat]).find? "lineHeight" = some "normal" := by
  intro bare boundless flat along
  have percentage : isPercentage endlessPercentage = true := by
    rw [isPercentage, numeralBefore?_endless]
    rfl
  have notEmpty : present (some endlessPercentage) = some endlessPercentage :=
    present_ofList endless.chars '%'
  have bareForm : ∀ property ∈ properties, property.IsWellFormed Vocabulary.core bare :=
    isWellFormed_of_heights (by decide) (by decide)
  have boundlessForm : ∀ property ∈ properties,
      property.IsWellFormed Vocabulary.core boundless := by
    refine isWellFormed_of_heights (fun text given => ?_) (by decide)
    rw [notEmpty] at given
    exact Option.some.inj given ▸ percentage
  have flatForm : ∀ property ∈ properties, property.IsWellFormed Vocabulary.core flat :=
    isWellFormed_of_heights (by decide) (by decide)
  have flatSize : (along [flat]).find? "fontSize" = some "0.000000rh" := by
    decide +kernel
  have size : (along [boundless, flat]).find? "fontSize" = some "NaNrh" := by
    refine (find?_along_eq_some_iff sizeProperty_mem).mpr ?_
    rw [outcome_sizeProperty (boundlessForm _ sizeProperty_mem), given?_size, notEmpty,
      (along_produced _).present_find?, flatSize, computeFontSize_of_isPercentage percentage,
      percentOf_endless]
  have bareSize : (along [bare, boundless, flat]).find? "fontSize" = some "NaNrh" :=
    find?_fontSize_of_not_given (bareForm _ sizeProperty_mem) rfl size
  have line : (along [boundless, flat]).find? "lineHeight" = none :=
    find?_lineHeight_of_hasOverflown (boundlessForm _ lineProperty_mem) rfl (by decide) size
      (by decide)
  have bareLine : (along [bare, boundless, flat]).find? "lineHeight" =
      some (((along [boundless, flat]).find? "lineHeight").getD "normal") :=
    find?_along_of_not_given (bareForm _ lineProperty_mem) rfl
  refine ⟨?_, ⟨_, rfl⟩, ?_, rfl, rfl, ?_, bareLine.trans (by rw [line]; rfl)⟩
  · simp only [List.forall_mem_cons, List.not_mem_nil, false_imp_iff, implies_true, and_true]
    exact ⟨bareForm, boundlessForm, flatForm⟩
  · simp only [List.suffix_cons_iff, List.suffix_nil, forall_eq_or_imp, forall_eq, bareSize, size,
      flatSize]
    decide
  · rintro ⟨own, height, sized, computes⟩
    cases size.symm.trans sized
    rw [heightOf, if_neg (by decide), percentOf_of_hasOverflown (by decide) (by decide)] at computes
    cases computes

end TimedText.Style
