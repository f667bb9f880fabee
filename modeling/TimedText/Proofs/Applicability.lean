import Mathlib.Data.List.Nodup
import TimedText.Proofs.Verdict
import TimedText.Style.Cascade
/-!
Attributes that do not apply. Of the attributes that are specified for an element, those are
failed of which the local part names a known attribute that does not apply to elements of its
kind. So all known attributes are failed that have to be, and besides them those of other
namespaces, or of none, that happen to share a local part with one of them.
-/

namespace TimedText.Style

/-! ## Known attributes -/

/-- A known attribute of documents in the core namespace that does not apply to elements of a
kind. -/
def IsMisapplied (kind name : String) : Prop :=
  ∃ property ∈ properties, property.qualifiedName Vocabulary.core = name ∧ kind ∉ property.kinds

/-- An attribute that is not known, but has the local part of a known one that does not apply to
elements of a kind. -/
structure IsNamesake (kind name : String) : Prop where
  unknown : ∀ property ∈ properties, property.qualifiedName Vocabulary.core ≠ name
  shared : ∃ property ∈ properties, property.name = Name.localPart name ∧ kind ∉ property.kinds

private theorem properties_names_nodup : (properties.map (·.name)).Nodup := by decide

private theorem localPart_qualifiedName : ∀ property ∈ properties,
    Name.localPart (property.qualifiedName Vocabulary.core) = property.name := by decide +kernel

section

variable {kind name other part : String}

private theorem isApplicable_eq_false_iff :
    isApplicable part kind = false ↔
      ∃ property ∈ properties, property.name = part ∧ kind ∉ property.kinds := by
  have named {property : Property} : property ∈ properties.filter (·.name == part) ↔
      property ∈ properties ∧ property.name = part := by simp
  rw [isApplicable]
  split
  next none =>
    refine iff_of_false Bool.true_eq_false.mp ?_
    rintro ⟨property, known, same, _⟩
    exact List.not_mem_nil (none ▸ named.mpr ⟨known, same⟩)
  next some =>
    rw [List.any_eq_false]
    constructor
    · intro each
      rcases List.exists_mem_of_ne_nil _ some with ⟨property, member⟩
      rcases named.mp member with ⟨known, same⟩
      exact ⟨property, known, same, by simpa [Property.appliesTo] using each property member⟩
    · rintro ⟨property, known, same, apart⟩ another member
      rcases named.mp member with ⟨alsoKnown, alsoSame⟩
      cases List.inj_on_of_nodup_map properties_names_nodup alsoKnown known
        (alsoSame.trans same.symm)
      simpa [Property.appliesTo] using apart

theorem isApplicable_localPart_eq_false_iff :
    isApplicable (Name.localPart name) kind = false ↔
      IsMisapplied kind name ∨ IsNamesake kind name := by
  rw [isApplicable_eq_false_iff]
  constructor
  · rintro ⟨property, known, same, apart⟩
    by_cases unknown : ∀ another ∈ properties, another.qualifiedName Vocabulary.core ≠ name
    · exact .inr ⟨unknown, property, known, same, apart⟩
    · push Not at unknown
      rcases unknown with ⟨another, alsoKnown, qualified⟩
      have part := localPart_qualifiedName another alsoKnown
      rw [qualified] at part
      cases List.inj_on_of_nodup_map properties_names_nodup known alsoKnown (same.trans part)
      exact .inl ⟨property, known, qualified, apart⟩
  · rintro (⟨property, known, rfl, apart⟩ | namesake)
    · exact ⟨property, known, (localPart_qualifiedName property known).symm, apart⟩
    · exact namesake.shared

theorem IsNamesake.not_isMisapplied (namesake : IsNamesake kind name) :
    ¬IsMisapplied kind name := by
  rintro ⟨property, known, qualified, _⟩
  exact namesake.unknown property known qualified

/-! ## Findings -/

def inapplicable (kind name : String) : Finding :=
  .fail .ttmlStylingAttributeApplicability s!"{kind} element"
    (s!"Specified style attribute {name} is not applicable " ++ s!"to element type {kind}")

theorem inapplicable_inj : inapplicable kind name = inapplicable kind other ↔ name = other := by
  refine ⟨fun same => ?_, congrArg _⟩
  have messages := congrArg (·.message.toList) same
  simp only [inapplicable, Finding.fail, String.toList_append, List.append_assoc] at messages
  exact String.toList_injective
    (List.append_cancel_right (List.append_cancel_left messages))

theorem checkApplicability_findings (kind : String) (specified : Specified) :
    (checkApplicability kind specified).findings =
      (specified.keys.filter fun name => !isApplicable (Name.localPart name) kind).map
        (inapplicable kind) := by
  rw [checkApplicability, Verdict.forEach_findings]
  induction specified.keys with
  | nil => rfl
  | cons name rest induction =>
      rw [List.flatMap_cons, induction, List.filter_cons]
      cases isApplicable (Name.localPart name) kind <;> rfl

end

/-- The attributes that are failed, each in its turn, are those known ones that do not apply and
their namesakes. So exactly those are failed that ought to be if and only if there are no
namesakes among the attributes that are specified. -/
theorem checkApplicability_fails_iff (kind : String) (specified : Specified) :
    let verdict := checkApplicability kind specified
    verdict.findings.Sublist (specified.keys.map (inapplicable kind)) ∧
    (verdict.valid = true ↔ verdict.findings = []) ∧
    (∀ name, inapplicable kind name ∈ verdict.findings ↔
      name ∈ specified.keys ∧ (IsMisapplied kind name ∨ IsNamesake kind name)) ∧
    ((∀ name, inapplicable kind name ∈ verdict.findings ↔
        name ∈ specified.keys ∧ IsMisapplied kind name) ↔
      ∀ name ∈ specified.keys, ¬IsNamesake kind name) := by
  intro verdict
  have findings : verdict.findings = _ := checkApplicability_findings kind specified
  have failed (name : String) : inapplicable kind name ∈ verdict.findings ↔
      name ∈ specified.keys ∧ (IsMisapplied kind name ∨ IsNamesake kind name) := by
    simp only [findings, List.mem_map, List.mem_filter, Bool.not_eq_true',
      isApplicable_localPart_eq_false_iff, inapplicable_inj, exists_eq_right]
  refine ⟨?_, ?_, failed, ?_⟩
  · rw [findings]
    exact List.filter_sublist.map _
  · rw [findings, List.map_eq_nil_iff, List.filter_eq_nil_iff]
    refine (Verdict.forEach_valid _ _).trans (forall₂_congr fun name _ => ?_)
    rw [Verdict.when_against_valid]
    simp
  · simp only [failed]
    constructor
    · intro agree name member namesake
      exact namesake.not_isMisapplied ((agree name).mp ⟨member, .inr namesake⟩).2
    · intro none name
      exact and_congr_right fun member => or_iff_left (none name member)

theorem checkApplicability_fails_iff_namesake :
    let name := Name.qualified "urn:x" "color"
    let verdict := checkApplicability "p" (.ofList [(name, "red")])
    IsNamesake "p" name ∧ verdict.valid = false ∧ verdict.findings = [inapplicable "p" name] ∧
      ¬∀ other, inapplicable "p" other ∈ verdict.findings ↔
        other ∈ [name] ∧ IsMisapplied "p" other := by
  have namesake : IsNamesake "p" (Name.qualified "urn:x" "color") := by
    constructor <;> decide
  refine ⟨namesake, by decide, by decide, fun agree => ?_⟩
  have none := (checkApplicability_fails_iff "p"
    (.ofList [(Name.qualified "urn:x" "color", "red")])).2.2.2
  exact none.mp agree _ List.mem_cons_self namesake

end TimedText.Style
