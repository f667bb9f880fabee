import Mathlib.Data.List.Forall2
import TimedText.Proofs.Markup.Fragment
import TimedText.Proofs.Text.Cut
/-!
What is read from a start tag: its attributes one by one, with the references in their
values replaced and with their names in the scope inside.
-/

namespace TimedText.Markup

/-! ## Names in two parts -/

theorem prefixAndPart?_eq_some_iff {written : List Char} {before part : String} :
    prefixAndPart? written = some (before, part) ↔
      ':' ∉ before.toList ∧ written = before.toList ++ ':' :: part.toList := by
  constructor
  · intro parts
    unfold prefixAndPart? at parts
    split at parts
    next front colon rest spans =>
      cases parts
      rcases Text.span_bne_eq_iff.mp spans with ⟨-, none, rfl⟩
      rw [String.toList_ofList, String.toList_ofList]
      exact ⟨none, rfl⟩
    next => cases parts
  · rintro ⟨none, rfl⟩
    rw [prefixAndPart?, Text.span_bne_eq_iff.mpr ⟨rfl, none, rfl⟩]
    dsimp only
    rw [String.ofList_toList, String.ofList_toList]

theorem prefixAndPart?_eq_none_iff {written : List Char} :
    prefixAndPart? written = none ↔ ':' ∉ written := by
  constructor
  · intro whole member
    unfold prefixAndPart? at whole
    split at whole
    next => cases whole
    next front spans => exact Text.not_mem_of_span_bne spans member
  · intro none
    cases parts : prefixAndPart? written with
    | none => rfl
    | some pair =>
        refine absurd ?_ none
        rw [(prefixAndPart?_eq_some_iff.mp parts).2]
        simp

/-! ## Steps that may fail -/

theorem mapM_eq_ok_iff {α β ε : Type} {step : α → Except ε β} {items : List α}
    {results : List β} :
    items.mapM step = .ok results ↔
      List.Forall₂ (fun item result => step item = .ok result) items results := by
  induction items generalizing results with
  | nil =>
      rw [List.mapM_nil, List.forall₂_nil_left_iff]
      exact ⟨fun same => (Except.ok.inj same).symm, fun none => none ▸ rfl⟩
  | cons item rest induction =>
      rw [List.mapM_cons, List.forall₂_cons_left_iff]
      cases one : step item with
      | error flaw => exact iff_of_false nofun fun ⟨_, _, same, _⟩ => nomatch same
      | ok first =>
          cases others : rest.mapM step with
          | error flaw =>
              refine iff_of_false nofun ?_
              rintro ⟨_, more, -, following, -⟩
              rw [← induction, others] at following
              cases following
          | ok more =>
              constructor
              · rintro ⟨⟩
                exact ⟨first, more, rfl, induction.mp others, rfl⟩
              · rintro ⟨_, further, same, following, rfl⟩
                cases same
                rw [← induction, others] at following
                cases following
                rfl

theorem map_eq_of_forall₂ {α β γ : Type} {own : α → γ} {other : β → γ} {items : List α}
    {results : List β}
    (each : List.Forall₂ (fun item result => own item = other result) items results) :
    items.map own = results.map other := by
  rw [← List.forall₂_eq_eq_eq]
  exact List.forall₂_map_left_iff.mpr (List.forall₂_map_right_iff.mpr each)

theorem bind_of_ok {α β : Type} {first : Except Flaw α} {next : α → Except Flaw β}
    {value : α} {result : β} (one : first = .ok value) (more : next value = .ok result) :
    (first >>= next) = .ok result := by
  rw [one]
  exact more

/-! ## Start tags -/

/-- An attribute with the references in its value replaced. -/
def Attribute.Means (pair : Attribute) (own : List Char × String) : Prop :=
  own.1 = pair.key ∧ expand pair.value = .ok own.2.toList

theorem StartTag.read_eq_ok_iff {tag : List Char} {start : StartTag} :
    StartTag.read tag = .ok start ↔
      (attributesOf true tag).flaw = none ∧ start.name = tagName tag ∧
        List.Forall₂ Attribute.Means (attributesOf true tag).read start.attributes := by
  rw [StartTag.read]
  constructor
  · intro reads
    rcases exists_of_bind reads with ⟨attributes, expanded, reads⟩
    split at reads
    next => cases reads
    next sound =>
      cases reads
      refine ⟨sound, rfl, (mapM_eq_ok_iff.mp expanded).imp fun pair own same => ?_⟩
      rcases own with ⟨key, value⟩
      cases expanded : expand pair.value with
      | error flaw =>
          rw [expanded] at same
          cases same
      | ok characters =>
          rw [expanded] at same
          cases same
          exact ⟨rfl, by rw [expanded, String.toList_ofList]⟩
  · rintro ⟨sound, name, means⟩
    refine bind_of_ok (mapM_eq_ok_iff.mpr (means.imp fun pair own means => ?_)) ?_
    · rcases own with ⟨key, value⟩
      rcases means with ⟨same, expanded⟩
      dsimp only at same expanded
      rw [expanded, same]
      dsimp only
      rw [String.ofList_toList]
    · rw [sound, ← name]

theorem StartTag.keys_of_read {tag : List Char} {start : StartTag}
    (reads : StartTag.read tag = .ok start) :
    start.attributes.map Prod.fst = (attributesOf true tag).read.map Attribute.key := by
  have means := (StartTag.read_eq_ok_iff.mp reads).2.2
  exact (map_eq_of_forall₂ (means.imp fun _ _ own => own.1.symm)).symm

theorem Scope.named_eq_ok_iff {scope : Scope} {attributes : List (List Char × String)}
    {names : List (String × String)} :
    scope.named attributes = .ok names ↔
      List.Forall₂
        (fun pair name => scope.attributeName pair.1 = .ok name.1 ∧ name.2 = pair.2)
        attributes names := by
  rw [Scope.named, mapM_eq_ok_iff]
  refine ⟨.imp fun pair name same => ?_, .imp fun pair name same => ?_⟩
  · rcases exists_of_bind same with ⟨resolved, resolves, made⟩
    cases made
    exact ⟨resolves, rfl⟩
  · rcases name with ⟨resolved, value⟩
    rcases same with ⟨resolves, rfl⟩
    dsimp only
    rw [resolves]
    rfl

def StartTag.plainAttributes (start : StartTag) : List (List Char × String) :=
  start.attributes.filter fun pair => (declaredPrefix? pair.1).isNone

theorem Heading.read_eq_ok_iff {attributeScope : Scope → Scope} {outer : Scope}
    {tag : List Char} {heading : Heading} :
    Heading.read attributeScope outer tag = .ok heading ↔
      ∃ start, StartTag.read tag = .ok start ∧
        heading.scope = outer.within start.attributes ∧
        heading.scope.elementName start.name = .ok heading.name ∧
        (attributeScope heading.scope).named start.plainAttributes = .ok heading.attributes := by
  rw [Heading.read]
  constructor
  · intro reads
    rcases exists_of_bind reads with ⟨start, own, reads⟩
    rcases exists_of_bind reads with ⟨name, resolves, reads⟩
    rcases exists_of_bind reads with ⟨attributes, names, reads⟩
    cases reads
    exact ⟨start, own, rfl, resolves, names⟩
  · rintro ⟨start, own, inside, resolves, names⟩
    rw [inside] at resolves names
    change _ = Except.ok (⟨heading.name, heading.attributes, heading.scope⟩ : Heading)
    rw [inside]
    exact bind_of_ok own (bind_of_ok resolves (bind_of_ok names rfl))

end TimedText.Markup
