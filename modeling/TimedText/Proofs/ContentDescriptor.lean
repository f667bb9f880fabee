import TimedText.Check.Composition
import TimedText.Proofs.Text.Cut
import TimedText.Proofs.Text.Split
import TimedText.Proofs.Verdict
/-!
What a script and its parts represent. The check looks at what is said on every element in
the document, and at what each part represents with what is around it. What is said on the
root is only looked at as far as parts inside fall back on it.
-/

namespace TimedText.Check

/-! ## Content descriptors -/

/-- A content descriptor is registered up to its first user-defined word, or begins with
one. -/
def IsDescriptor (registry : Registry) (descriptor : String) : Prop :=
  ∃ registered own, Text.split '.' descriptor = registered ++ own ∧
    (∀ word ∈ registered, isUserDefined word = false) ∧
    (∀ word ∈ own.head?, isUserDefined word = true) ∧
    (registered ≠ [] → ".".intercalate registered ∈ registry)

/-- A content descriptor goes on from where another one ends, if it goes on. -/
def Specialises (descriptor parent : String) : Prop :=
  Text.split '.' parent <+: Text.split '.' descriptor

theorem isSubtype_iff {descriptor parent : String} :
    isSubtype descriptor parent = true ↔ Specialises descriptor parent :=
  List.isPrefixOf_iff_prefix

instance specialises_isPartialOrder : IsPartialOrder String Specialises where
  refl _ := List.prefix_rfl
  trans _ _ _ first second := second.trans first
  antisymm _ _ first second :=
    Text.split_injective '.' (second.eq_of_length_le first.length_le)

/-- Descriptors are ordered by how special they are, and one is as special as another if they are
the same or what it says begins with the other one and a point. -/
theorem subtypes_ordered :
    (IsPartialOrder String fun descriptor parent => isSubtype descriptor parent = true) ∧
      ∀ descriptor parent, isSubtype descriptor parent = true ↔
        descriptor = parent ∨ parent.toList ++ ['.'] <+: descriptor.toList := by
  constructor
  · simp only [isSubtype_iff]
    exact specialises_isPartialOrder
  · intro descriptor parent
    rw [isSubtype_iff, Specialises, Text.split_prefix_iff]

example : isSubtype "visual." "visual" = true ∧ isSubtype "visual" "visual." = false := by decide

private theorem isContentDescriptor_iff {registry : Registry} {descriptor : String} :
    isContentDescriptor registry descriptor = true ↔ IsDescriptor registry descriptor := by
  have some : (Text.split '.' descriptor).isEmpty = false := by
    rw [Text.split, Text.pieces_eq_splitOn, List.isEmpty_map, List.isEmpty_eq_false_iff]
    exact List.splitOn_ne_nil _ _
  let front := (Text.split '.' descriptor).takeWhile fun word => !isUserDefined word
  have front_known : isContentDescriptor registry descriptor = true ↔
      (front ≠ [] → ".".intercalate front ∈ registry) := by
    rw [isContentDescriptor]
    split
    next none => simp [some, front, none]
    next registered => rw [imp_iff_right registered, List.contains_iff_mem]
  have front_eq_iff (registered : List String) : front = registered ↔
      ∃ own, Text.split '.' descriptor = registered ++ own ∧
        (∀ word ∈ registered, isUserDefined word = false) ∧
        ∀ word ∈ own.head?, isUserDefined word = true := by
    simp only [front, Text.takeWhile_eq_iff, Bool.not_eq_true', Bool.not_eq_false']
  rw [front_known]
  constructor
  · intro known
    rcases (front_eq_iff front).mp rfl with ⟨own, words, plain, userDefined⟩
    exact ⟨front, own, words, plain, userDefined, known⟩
  · rintro ⟨registered, own, words, plain, userDefined, known⟩
    rwa [(front_eq_iff registered).mpr ⟨own, words, plain, userDefined⟩]

/-! ## The script as a whole -/

def scriptContent? (root : Element) : Option String :=
  root.attribute? (Name.qualified Vocabulary.scriptMetadata "scriptRepresents")

def IsAccepted (registry : Registry) (root : Element) (descriptor : String) : Prop :=
  ∃ content, scriptContent? root = some content ∧ descriptor ∈ Text.words content ∧
    IsDescriptor registry descriptor

/-- The script as a whole is said to represent something, in content descriptors. -/
def DeclaresContent (registry : Registry) (root : Element) : Prop :=
  ∃ content, scriptContent? root = some content ∧
    ∀ descriptor ∈ Text.words content, IsDescriptor registry descriptor

variable {registry : Registry} {uri inherited descriptor : String} {root element : Element}

theorem scriptDescriptors_valid :
    (scriptDescriptors registry root).1.valid = true ↔ DeclaresContent registry root := by
  rw [scriptDescriptors, DeclaresContent, scriptContent?]
  split
  next none => simp [none, Verdict.against]
  next content given =>
    simp [given, Verdict.forEach_valid, Verdict.against, isContentDescriptor_iff]

private theorem mem_scriptDescriptors :
    descriptor ∈ (scriptDescriptors registry root).2 ↔ IsAccepted registry root descriptor := by
  rw [scriptDescriptors, IsAccepted, scriptContent?]
  split
  next none => simp [none]
  next content given => simp [given, isContentDescriptor_iff]

/-! ## Parts of the script -/

/-- An element may represent something: it is one of those that do, and this makes what the
script as a whole represents more special, or no less so. -/
structure MayRepresent (registry : Registry) (uri : String) (root element : Element)
    (descriptor : String) : Prop where
  permitted : element.tag ∈ representingTags uri
  isDescriptor : IsDescriptor registry descriptor
  specialises : ∃ parent, IsAccepted registry root parent ∧ Specialises descriptor parent

def RepresentsWell (registry : Registry) (uri : String) (root element : Element) : Prop :=
  ∀ descriptor, element.attribute? representsName = some descriptor →
    MayRepresent registry uri root element descriptor

theorem checkRepresents_valid :
    (checkRepresents registry uri (scriptDescriptors registry root).2 element).valid = true ↔
      RepresentsWell registry uri root element := by
  rw [checkRepresents, RepresentsWell]
  cases said : element.attribute? representsName with
  | none => simp [Verdict.silent]
  | some descriptor =>
      dsimp only
      have subtype : (scriptDescriptors registry root).2.any (isSubtype descriptor) = true ↔
          ∃ parent, IsAccepted registry root parent ∧ Specialises descriptor parent := by
        simp only [List.any_eq_true, mem_scriptDescriptors, isSubtype_iff]
      rw [Verdict.append_valid, Verdict.append_valid]
      simp only [Verdict.when_against_valid, Bool.not_not, List.contains_iff_mem,
        isContentDescriptor_iff, subtype]
      constructor
      · rintro ⟨⟨permitted, isDescriptor⟩, specialises⟩ _ same
        cases same
        exact ⟨permitted, isDescriptor, specialises⟩
      · intro well
        rcases well descriptor rfl with ⟨permitted, isDescriptor, specialises⟩
        exact ⟨⟨permitted, isDescriptor⟩, specialises⟩

/-! ## Computed content -/

/-- An element is reached through elements that may represent something, along a line of
elements of which it is the last one. -/
inductive Reaches (uri : String) : Element → List Element → Element → Prop
  | here (element : Element) : Reaches uri element [element] element
  | inside {element child inner : Element} {line : List Element}
      (member : child ∈ element.children) (permitted : child.tag ∈ representingTags uri)
      (further : Reaches uri child line inner) : Reaches uri element (element :: line) inner

/-- What is said to be represented at the end of a line or, if nothing is, closest to it. -/
def contentAlong (line : List Element) : Option String :=
  line.reverse.findSome? (·.attribute? representsName)

private theorem contentAlong_cons (element : Element) (line : List Element) :
    contentAlong (element :: line)
      = (contentAlong line).or (element.attribute? representsName) := by
  rw [contentAlong, List.reverse_cons, List.findSome?_append, List.findSome?_singleton]
  rfl

private theorem contentAlong_cons_getD (element : Element) (line : List Element) :
    (contentAlong (element :: line)).getD inherited
      = (contentAlong line).getD ((element.attribute? representsName).getD inherited) := by
  rw [contentAlong_cons]
  cases contentAlong line <;> rfl

/-- Each element in reach that needs to represent something does, by what is said along the
line to it or, if nothing is, by something inherited. -/
def ComputesFrom (registry : Registry) (uri inherited : String) (element : Element) : Prop :=
  ∀ line inner, Reaches uri element line inner → needsContent uri inner = true →
    IsDescriptor registry ((contentAlong line).getD inherited)

private theorem computesFrom_iff :
    ComputesFrom registry uri inherited element ↔
      (needsContent uri element = true →
        IsDescriptor registry ((element.attribute? representsName).getD inherited)) ∧
      ∀ child ∈ element.children, child.tag ∈ representingTags uri →
        ComputesFrom registry uri ((element.attribute? representsName).getD inherited) child := by
  constructor
  · intro computes
    constructor
    · intro needs
      have own := computes _ _ (.here element) needs
      rwa [contentAlong_cons_getD] at own
    · intro child member permitted line inner reaches needs
      have within := computes _ _ (.inside member permitted reaches) needs
      rwa [contentAlong_cons_getD] at within
  · rintro ⟨own, within⟩ line inner reaches needs
    cases reaches with
    | here =>
        rw [contentAlong_cons_getD]
        exact own needs
    | inside member permitted further =>
        rw [contentAlong_cons_getD]
        exact within _ member permitted _ _ further needs

mutual

theorem checkComputed_valid (registry : Registry) (uri inherited : String) :
    ∀ element, (checkComputed registry uri inherited element).valid = true ↔
      ComputesFrom registry uri inherited element
  | ⟨tag, attributes, children, text, tail⟩ => by
      rw [checkComputed, computesFrom_iff, Verdict.append_valid, Verdict.when_against_valid,
        checkComputedOfAll_valid registry uri _ children, ← isContentDescriptor_iff]
      simp [or_iff_not_imp_left]

private theorem checkComputedOfAll_valid (registry : Registry) (uri inherited : String) :
    ∀ elements, (checkComputedOfAll registry uri inherited elements).valid = true ↔
      ∀ element ∈ elements, element.tag ∈ representingTags uri →
        ComputesFrom registry uri inherited element
  | [] => by simp [checkComputedOfAll, Verdict.silent]
  | first :: rest => by
      rw [checkComputedOfAll, List.forall_mem_cons,
        ← checkComputedOfAll_valid registry uri inherited rest,
        ← checkComputed_valid registry uri inherited first, ← List.contains_iff_mem]
      split
      next permitted => rw [Verdict.append_valid, imp_iff_right permitted]
      next other => exact ⟨fun later => ⟨fun permitted => absurd permitted other, later⟩, And.right⟩

end

/-! ## Scripts -/

structure RepresentsContent (registry : Registry) (uri : String) (root : Element) : Prop where
  each : ∀ element ∈ root.walk, RepresentsWell registry uri root element
  computed : ComputesFrom registry uri "" root

theorem walk_eq (element : Element) : element.walk = element :: element.descendants := by
  rw [Element.walk, Element.walkAll, List.append_nil, Element.descendants]

/-- The check passes if the script as a whole and everything below the root are in order. What
is said on the root is left out, so what passes is in order exactly if that is. -/
theorem contentDescriptors_passes_iff (registry : Registry) (root : Element)
    (context : Context) :
    let run := (ElementCheck.contentDescriptors registry).run root context
    (run.result = .ok true ↔
      DeclaresContent registry root ∧
        (∀ element ∈ root.descendants, RepresentsWell registry context.uri root element) ∧
        ComputesFrom registry context.uri "" root) ∧
      (run.result = .ok true →
        (RepresentsContent registry context.uri root ↔
          RepresentsWell registry context.uri root root)) := by
  intro run
  have passes : run.result = .ok true ↔
      DeclaresContent registry root ∧
        (∀ element ∈ root.descendants, RepresentsWell registry context.uri root element) ∧
        ComputesFrom registry context.uri "" root := by
    have judged : run.result =
        .ok (checkContentDescriptors registry context.uri root).valid := rfl
    rw [judged, Except.ok.injEq, checkContentDescriptors]
    dsimp only
    rw [Verdict.append_valid, Verdict.append_valid, Verdict.forEach_valid,
      scriptDescriptors_valid, checkComputed_valid, and_assoc]
    simp only [checkRepresents_valid]
  refine ⟨passes, fun passed => ?_⟩
  rcases passes.mp passed with ⟨-, within, computed⟩
  constructor
  · intro represents
    exact represents.each root (walk_eq root ▸ List.mem_cons_self)
  · intro own
    refine ⟨?_, computed⟩
    -- The root is the only element of the walk that the check does not come to.
    rw [walk_eq]
    exact List.forall_mem_cons.mpr ⟨own, within⟩

def visualRoot : Element :=
  let paragraph := Element.bare (Name.qualified Vocabulary.core "p")
  let division : Element := ⟨Name.qualified Vocabulary.core "div", [], [paragraph], none, none⟩
  let body : Element := ⟨Name.qualified Vocabulary.core "body", [], [division], none, none⟩
  ⟨Name.qualified Vocabulary.core "tt",
    [(Name.qualified Vocabulary.scriptMetadata "scriptRepresents", "audio"),
      (representsName, "visual")], [body], none, none⟩

theorem contentDescriptors_passes_iff_visual :
    ((ElementCheck.contentDescriptors Registry.contentDescriptors).run visualRoot
        (.initial false)).result = .ok true ∧
      ¬RepresentsContent Registry.contentDescriptors (Context.initial false).uri visualRoot := by
  have passed : ((ElementCheck.contentDescriptors Registry.contentDescriptors).run visualRoot
      (.initial false)).result = .ok true := by
    decide +kernel
  refine ⟨passed, fun represents => ?_⟩
  have well := ((contentDescriptors_passes_iff Registry.contentDescriptors visualRoot
    (.initial false)).2 passed).mp represents
  rcases (well "visual" (by decide +kernel)).specialises with
    ⟨parent, ⟨content, declared, member, -⟩, special⟩
  have audio : scriptContent? visualRoot = some "audio" := by decide +kernel
  cases audio.symm.trans declared
  have only : Text.words "audio" = ["audio"] := by decide +kernel
  rw [only, List.mem_singleton] at member
  subst member
  exact absurd (isSubtype_iff.mpr special) (by decide +kernel)

end TimedText.Check
