import TimedText.Check.RegionReference
import TimedText.Proofs.Account
/-!
Where paragraphs are placed. The region in effect for an element is the first one
that is named on the way to it. A paragraph is placed if there is such a region and
the paragraph itself names no other one. That an element around the paragraph is
dropped because it names another region makes no difference.
-/

namespace TimedText.Check

open Timing

/-! ## Elements on the way -/

/-- An element inside another one, or that element itself: the steps of the path
from the one to the other, and the elements around the inner one on the way. -/
inductive Encloses : Element → Path → List Element → Element → Prop
  | here (element : Element) : Encloses element [] [] element
  | inside {element child inner : Element} {index : Nat} {steps : Path}
      {around : List Element} (placed : element.children[index]? = some child)
      (further : Encloses child steps around inner) :
      Encloses element (index :: steps) (element :: around) inner

/-- The region in effect after some elements, each inside the one before it. -/
def regionAlong (line : List Element) : Option String :=
  line.findSome? ownRegion?

@[simp] theorem regionAlong_nil : regionAlong [] = none := rfl

@[simp] theorem regionAlong_cons (element : Element) (line : List Element) :
    regionAlong (element :: line) = (ownRegion? element).or (regionAlong line) := by
  rw [regionAlong, List.findSome?_cons]
  cases ownRegion? element <;> rfl

/-- An element names another region than the one in effect around it. -/
def IsDropped (around : List Element) (element : Element) : Prop :=
  ∃ own outer, ownRegion? element = some own ∧ regionAlong around = some outer ∧
    own ≠ outer

def HasDropped (line : List Element) : Prop :=
  ∃ around element, around ++ [element] <+: line ∧ IsDropped around element

/-- A paragraph at the end of some steps that is not dropped itself, with the region
that is in effect for it. -/
structure Places (body : Element) (steps : Path) (around : List Element)
    (paragraph : Element) (region : String) : Prop where
  encloses : Encloses body steps around paragraph
  isParagraph : paragraph.localPart = "p"
  inEffect : regionAlong (around ++ [paragraph]) = some region
  kept : ¬IsDropped around paragraph

theorem Encloses.unique {element inner other : Element} {steps : Path}
    {around others : List Element} (encloses : Encloses element steps around inner)
    (again : Encloses element steps others other) : around = others ∧ inner = other := by
  induction encloses generalizing others with
  | here element =>
      cases again
      exact ⟨rfl, rfl⟩
  | inside placed further induction =>
      cases again with
      | inside placedAgain furtherAgain =>
          cases placed.symm.trans placedAgain
          rcases induction furtherAgain with ⟨rfl, same⟩
          exact ⟨rfl, same⟩

private theorem Places.unique {body paragraph other : Element} {steps : Path}
    {around others : List Element} {region another : String}
    (places : Places body steps around paragraph region)
    (again : Places body steps others other another) : region = another := by
  rcases places.encloses.unique again.encloses with ⟨rfl, rfl⟩
  exact Option.some.inj (places.inEffect.symm.trans again.inEffect)

/-! ## What the content is found to use -/

private theorem effectiveRegion_region (inherited : Option String) (element : Element) :
    (effectiveRegion inherited element).1 = inherited.or (ownRegion? element) := by
  unfold effectiveRegion
  cases ownRegion? element with
  | none => cases inherited <;> rfl
  | some own =>
      cases inherited with
      | none => rfl
      | some outer =>
          dsimp only
          split
          next => rfl
          next same => simpa using same

private def NamesOther (inherited : Option String) (element : Element) : Prop :=
  ∃ own outer, ownRegion? element = some own ∧ inherited = some outer ∧ own ≠ outer

private theorem effectiveRegion_dropped (inherited : Option String) (element : Element) :
    (effectiveRegion inherited element).2.2 = true ↔ NamesOther inherited element := by
  unfold effectiveRegion NamesOther
  cases ownRegion? element with
  | none => simp
  | some own =>
      cases inherited with
      | none => simp
      | some outer => by_cases same : own = outer <;> simp [same]

private theorem shown_not_mem_effectiveRegion (inherited : Option String) (element : Element)
    (place : Path) (region : String) :
    .shown place region ∉ (effectiveRegion inherited element).2.1 := by
  unfold effectiveRegion
  cases ownRegion? element with
  | none => simp
  | some own =>
      cases inherited with
      | none => simp
      | some outer => by_cases same : own = outer <;> simp [same]

private theorem mem_regionUsesOfAll {inherited : Option String} {path : Path} {index : Nat}
    {children : List Element} {usage : RegionUse} :
    usage ∈ regionUsesOfAll inherited path index children ↔
      ∃ place child, children[place]? = some child ∧
        usage ∈ regionUses inherited (path ++ [index + place]) child := by
  induction children generalizing index with
  | nil => simp [regionUsesOfAll]
  | cons first rest induction =>
      rw [regionUsesOfAll, List.mem_append, induction]
      constructor
      · rintro (own | ⟨place, child, placed, inside⟩)
        · exact ⟨0, first, rfl, own⟩
        · refine ⟨place + 1, child, placed, ?_⟩
          rwa [Nat.add_right_comm] at inside
      · rintro ⟨place, child, placed, inside⟩
        cases place with
        | zero =>
            cases placed
            exact .inl inside
        | succ place =>
            refine .inr ⟨place, child, placed, ?_⟩
            rwa [Nat.add_right_comm]

private theorem shown_mem_regionUses {inherited : Option String} {path place : Path}
    {element : Element} {region : String} :
    .shown place region ∈ regionUses inherited path element ↔
      (place = path ∧ element.localPart = "p" ∧
        inherited.or (ownRegion? element) = some region ∧
        ¬NamesOther inherited element) ∨
      ∃ index child, element.children[index]? = some child ∧
        .shown place region ∈
          regionUses (inherited.or (ownRegion? element)) (path ++ [index]) child := by
  rcases element with ⟨tag, attributes, children, text, tail⟩
  rw [regionUses]
  dsimp only
  rw [List.mem_append, List.mem_append, mem_regionUsesOfAll, ← effectiveRegion_dropped,
    effectiveRegion_region, or_iff_right (shown_not_mem_effectiveRegion _ _ _ _)]
  simp only [Nat.zero_add]
  refine or_congr_left ?_
  split
  next paragraph =>
    cases inherited.or (ownRegion? ⟨tag, attributes, children, text, tail⟩) with
    | none => simp [paragraphUse]
    | some shown =>
        simp only [Bool.and_eq_true, beq_iff_eq, Bool.not_eq_true'] at paragraph
        simp [paragraphUse, paragraph, eq_comm]
  next other =>
    simp only [Bool.and_eq_true, beq_iff_eq, Bool.not_eq_true', not_and] at other
    refine iff_of_false List.not_mem_nil ?_
    rintro ⟨-, part, -, kept⟩
    exact kept (by simpa using other part)

private theorem Element.size_of_getElem? {element child : Element} {index : Nat}
    (placed : element.children[index]? = some child) : child.size < element.size := by
  rcases List.append_of_mem (List.mem_of_getElem? placed) with ⟨before, after, children⟩
  rw [element.size_eq, children, Element.sizeOfAll_append, Element.sizeOfAll]
  omega

/-- What a paragraph names, and what is named on the way to it, decides whether it
is shown, together with the region in effect around it all. -/
private theorem shown_mem_regionUses_iff {inherited : Option String} {path place : Path}
    {element : Element} {region : String} :
    .shown place region ∈ regionUses inherited path element ↔
      ∃ steps around inner, place = path ++ steps ∧ Encloses element steps around inner ∧
        inner.localPart = "p" ∧
        inherited.or (regionAlong (around ++ [inner])) = some region ∧
        ¬NamesOther (inherited.or (regionAlong around)) inner := by
  induction size : element.size using Nat.strongRecOn
    generalizing inherited path element with
  | ind size induction =>
  subst size
  rw [shown_mem_regionUses]
  constructor
  · rintro (⟨rfl, part, inEffect, kept⟩ | ⟨index, child, placed, inside⟩)
    · refine ⟨[], [], element, (List.append_nil _).symm, .here element, part, ?_, ?_⟩
      · simpa using inEffect
      · simpa using kept
    · rcases (induction child.size (Element.size_of_getElem? placed) rfl).mp inside with
        ⟨steps, around, inner, rfl, encloses, part, inEffect, kept⟩
      refine ⟨index :: steps, element :: around, inner, by simp, .inside placed encloses,
        part, ?_, ?_⟩
      · simpa only [List.cons_append, regionAlong_cons, Option.or_assoc] using inEffect
      · simpa only [List.cons_append, regionAlong_cons, Option.or_assoc] using kept
  · rintro ⟨steps, around, inner, rfl, encloses, part, inEffect, kept⟩
    cases encloses with
    | here =>
        refine .inl ⟨List.append_nil _, part, ?_, ?_⟩
        · simpa using inEffect
        · simpa using kept
    | @inside _ child _ index steps around placed further =>
        refine .inr ⟨index, child, placed,
          (induction child.size (Element.size_of_getElem? placed) rfl).mpr
            ⟨steps, around, inner, by simp, further, part, ?_, ?_⟩⟩
        · simpa only [List.cons_append, regionAlong_cons, Option.or_assoc] using inEffect
        · simpa only [List.cons_append, regionAlong_cons, Option.or_assoc] using kept

private theorem mem_placementOf {uses : List RegionUse} {place : Path} {region : String} :
    (place, region) ∈ placementOf uses ↔ .shown place region ∈ uses := by
  rw [placementOf, List.mem_filterMap]
  constructor
  · rintro ⟨usage, member, shows⟩
    cases usage with
    | shown other name =>
        cases shows
        exact member
    | _ => cases shows
  · intro member
    exact ⟨_, member, rfl⟩

private theorem regionAt?_eq_some_iff {placement : Placement} {place : Path} {region : String}
    (unique : ∀ other, (place, other) ∈ placement → (place, region) ∈ placement →
      other = region) :
    placement.regionAt? place = some region ↔ (place, region) ∈ placement := by
  rw [Placement.regionAt?, Option.map_eq_some_iff]
  constructor
  · rintro ⟨⟨other, name⟩, found, rfl⟩
    have same : other = place := by simpa using List.find?_some found
    exact same ▸ List.mem_of_find?_eq_some found
  · intro member
    cases found : placement.find? fun pair => pair.1 == place with
    | none => exact absurd (beq_self_eq_true place) (List.find?_eq_none.mp found _ member)
    | some pair =>
        have same : pair.1 = place := by simpa using List.find?_some found
        have filed := List.mem_of_find?_eq_some found
        rw [← Prod.eta pair, same] at filed
        exact ⟨pair, rfl, unique _ filed member⟩

theorem regionAt?_placementOf_iff {body : Element} {path place : Path} {region : String} :
    (placementOf (regionUses none path body)).regionAt? place = some region ↔
      ∃ steps around paragraph, place = path ++ steps ∧
        Places body steps around paragraph region := by
  have filed (region : String) :
      (place, region) ∈ placementOf (regionUses none path body) ↔
        ∃ steps around paragraph, place = path ++ steps ∧
          Places body steps around paragraph region := by
    rw [mem_placementOf, shown_mem_regionUses_iff]
    constructor
    · rintro ⟨steps, around, inner, rfl, encloses, part, inEffect, kept⟩
      exact ⟨steps, around, inner, rfl, encloses, part, inEffect, kept⟩
    · rintro ⟨steps, around, inner, rfl, encloses, part, inEffect, kept⟩
      exact ⟨steps, around, inner, rfl, encloses, part, inEffect, kept⟩
  rw [regionAt?_eq_some_iff, filed]
  intro other otherFiled regionFiled
  rcases (filed other).mp otherFiled with ⟨steps, around, paragraph, rfl, places⟩
  rcases (filed region).mp regionFiled with ⟨again, others, second, same, placesAgain⟩
  cases List.append_cancel_left same
  exact places.unique placesAgain

/-! ## Documents -/

theorem placedChildren_of_single {root body : Element} {tag : String}
    (single : root.childrenNamed tag = [body]) :
    ∃ index, root.children[index]? = some body ∧
      (root.placedChildren []).filter (fun placed => placed.2.tag == tag)
        = [([index], body)] := by
  have bodies :
      ((root.placedChildren []).filter fun placed => placed.2.tag == tag).map Prod.snd
        = [body] := by
    rw [← single, Element.childrenNamed, ← Element.map_placedChildren [] root,
      List.filter_map]
    rfl
  rcases List.map_eq_singleton_iff.mp bodies with ⟨⟨path, child⟩, only, rfl⟩
  have member := (List.mem_filter.mp (only ▸ List.mem_singleton_self (path, child))).1
  rcases List.mem_map.mp member with ⟨⟨placed, index⟩, zipped, same⟩
  cases same
  refine ⟨index, ?_, only⟩
  simpa using List.mem_zipIdx_iff_getElem?.mp zipped

theorem checkRegionReferences_placement {root body : Element} {path : Path}
    {context : Context}
    (single : (root.placedChildren []).filter (fun placed =>
      placed.2.tag == Name.qualified context.uri "body") = [(path, body)]) :
    (checkRegionReferences root context).context.placement
      = some (placementOf (regionUses none path body)) := by
  rw [checkRegionReferences, Run.context_bind]
  dsimp only
  rw [single]
  dsimp only
  cases context.regions with
  | none => rfl
  | some regions => rfl

/-- Every paragraph is filed that is not dropped itself and for which a region is in
effect. So dropped elements keep what they hold from being shown exactly if they hold
no such paragraph. -/
theorem checkRegionReferences_places_iff {root body : Element} {context : Context}
    (single : root.childrenNamed (Name.qualified context.uri "body") = [body]) :
    ∃ index placement, root.children[index]? = some body ∧
      (checkRegionReferences root context).context.placement = some placement ∧
      (∀ place region, placement.regionAt? place = some region ↔
        ∃ steps around paragraph, place = index :: steps ∧
          Places body steps around paragraph region) ∧
      ((∀ place region, placement.regionAt? place = some region ↔
          ∃ steps around paragraph, place = index :: steps ∧
            Places body steps around paragraph region ∧ ¬HasDropped around) ↔
        ∀ steps around paragraph region, Places body steps around paragraph region →
          ¬HasDropped around) := by
  rcases placedChildren_of_single single with ⟨index, placed, only⟩
  have filed (place : Path) (region : String) :
      (placementOf (regionUses none [index] body)).regionAt? place = some region ↔
        ∃ steps around paragraph, place = index :: steps ∧
          Places body steps around paragraph region :=
    regionAt?_placementOf_iff
  refine ⟨index, _, placed, checkRegionReferences_placement only, filed, ?_⟩
  constructor
  · intro shown steps around paragraph region places
    have here := (filed _ _).mpr ⟨steps, around, paragraph, rfl, places⟩
    rcases (shown _ _).mp here with ⟨again, others, other, same, placesAgain, none⟩
    cases same
    rwa [(places.encloses.unique placesAgain.encloses).1]
  · intro none place region
    rw [filed]
    constructor
    · rintro ⟨steps, around, paragraph, same, places⟩
      exact ⟨steps, around, paragraph, same, places, none _ _ _ _ places⟩
    · rintro ⟨steps, around, paragraph, same, places, -⟩
      exact ⟨steps, around, paragraph, same, places⟩

def droppedDivision : Element :=
  ⟨Name.qualified Vocabulary.core "div", [("region", "bottom")],
    [Element.bare (Name.qualified Vocabulary.core "p")], none, none⟩

def droppingBody : Element :=
  ⟨Name.qualified Vocabulary.core "body", [("region", "top")], [droppedDivision], none,
    none⟩

def droppingRoot : Element :=
  ⟨Name.qualified Vocabulary.core "tt", [], [droppingBody], none, none⟩

private theorem droppingBody_places :
    Places droppingBody [0, 0] [droppingBody, droppedDivision]
      (Element.bare (Name.qualified Vocabulary.core "p")) "top" where
  encloses := .inside rfl (.inside rfl (.here _))
  isParagraph := by decide +kernel
  inEffect := by decide +kernel
  kept := by
    rintro ⟨own, outer, names, -⟩
    have silent : ownRegion? (Element.bare (Name.qualified Vocabulary.core "p")) = none := by
      decide +kernel
    cases silent.symm.trans names

private theorem droppingBody_hasDropped : HasDropped [droppingBody, droppedDivision] :=
  ⟨[droppingBody], droppedDivision, List.prefix_refl _, "bottom", "top",
    by decide +kernel, by decide +kernel, by decide⟩

theorem checkRegionReferences_places_iff_dropping :
    droppingRoot.childrenNamed (Name.qualified (Context.initial false).uri "body")
        = [droppingBody] ∧
      HasDropped [droppingBody, droppedDivision] ∧
      ∃ placement,
        (checkRegionReferences droppingRoot (.initial false)).context.placement
          = some placement ∧
        placement.regionAt? [0, 0, 0] = some "top" := by
  have single : droppingRoot.childrenNamed
      (Name.qualified (Context.initial false).uri "body") = [droppingBody] := by
    have named : (droppingBody.tag
        == Name.qualified (Context.initial false).uri "body") = true := by decide +kernel
    exact List.filter_cons_of_pos named
  refine ⟨single, droppingBody_hasDropped, ?_⟩
  rcases checkRegionReferences_places_iff single with ⟨index, placement, placed, filed, at?, -⟩
  have first : index = 0 := by
    have bound := (List.getElem?_eq_some_iff.mp placed).1
    exact Nat.lt_one_iff.mp bound
  subst first
  exact ⟨placement, filed, (at? _ _).mpr ⟨_, _, _, rfl, droppingBody_places⟩⟩

end TimedText.Check
