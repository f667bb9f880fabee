import TimedText.Proofs.Markup.Construction
import TimedText.Proofs.Markup.Heading
/-!
What the start tags of a document say, with the namespaces and the local parts of all names
still apart. The elements of a document that is read are those that its start tags open, in
document order.
-/

namespace TimedText.Markup

/-! ## Expanded names -/

/-- A name as it is meant: the namespace that its prefix stands for and what is written
after the prefix. The empty namespace is none. -/
structure ExpandedName where
  uri : String
  part : String
deriving DecidableEq, Repr

def ExpandedName.qualified (name : ExpandedName) : String :=
  Name.qualified name.uri name.part

namespace Scope

variable {scope : Scope}

def expand (scope : Scope) (before part : String) : Except Flaw ExpandedName :=
  if before = "" then .ok ⟨scope.default, part⟩
  else
    match scope.uri? before with
    | some uri => .ok ⟨uri, part⟩
    | none => .error (.unboundPrefix before)

def expandElement (scope : Scope) (written : List Char) : Except Flaw ExpandedName :=
  match prefixAndPart? written with
  | some (before, part) => scope.expand before part
  | none => scope.expand "" (String.ofList written)

def expandAttribute (scope : Scope) (key : List Char) : Except Flaw ExpandedName :=
  match prefixAndPart? key with
  | some (before, part) => scope.expand before part
  | none => .ok ⟨"", String.ofList key⟩

private theorem resolve_expand (before part : String) :
    scope.resolve before part = (scope.expand before part).map ExpandedName.qualified := by
  rw [resolve, expand]
  split
  · rfl
  · cases scope.uri? before <;> rfl

private theorem elementName_expand (written : List Char) :
    scope.elementName written = (scope.expandElement written).map ExpandedName.qualified := by
  rw [elementName, expandElement]
  cases prefixAndPart? written with
  | none => exact resolve_expand _ _
  | some pair => exact resolve_expand _ _

private theorem attributeName_expand (key : List Char) :
    scope.attributeName key = (scope.expandAttribute key).map ExpandedName.qualified := by
  rw [attributeName, expandAttribute]
  cases prefixAndPart? key with
  | none => rfl
  | some pair => exact resolve_expand _ _

end Scope

/-! ## Openings -/

structure OpenedAttribute where
  key : List Char
  name : ExpandedName
  value : String

def OpenedAttribute.pair (opened : OpenedAttribute) : String × String :=
  (opened.name.qualified, opened.value)

structure Opening where
  tag : ExpandedName
  attributes : List OpenedAttribute
  scope : Scope

def Scope.opened (scope : Scope) (pair : List Char × String) :
    Except Flaw OpenedAttribute := do
  let name ← scope.expandAttribute pair.1
  return ⟨pair.1, name, pair.2⟩

namespace Opening

def read (outer : Scope) (tag : List Char) : Except Flaw Opening := do
  let start ← StartTag.read tag
  let scope := outer.within start.attributes
  let name ← scope.expandElement start.name
  let attributes ← start.plainAttributes.mapM scope.opened
  return ⟨name, attributes, scope⟩

def pairs (opening : Opening) : List (String × String) :=
  opening.attributes.map OpenedAttribute.pair

private def heading (opening : Opening) : Heading :=
  ⟨opening.tag.qualified, opening.pairs, opening.scope⟩

structure Describes (opening : Opening) (element : Element) : Prop where
  tag : element.tag = opening.tag.qualified
  attributes : element.attributes = opening.pairs

private theorem named_opened (scope : Scope) (attributes : List (List Char × String)) :
    scope.named attributes
      = (attributes.mapM scope.opened).map (List.map OpenedAttribute.pair) := by
  induction attributes with
  | nil => rfl
  | cons pair rest induction =>
      rcases pair with ⟨key, value⟩
      rw [Scope.named] at induction
      rw [Scope.named, List.mapM_cons, List.mapM_cons, induction, Scope.opened]
      dsimp only
      rw [Scope.attributeName_expand]
      cases scope.expandAttribute key with
      | error flaw => rfl
      | ok name =>
          cases rest.mapM scope.opened with
          | error flaw => rfl
          | ok opened => rfl

private theorem read_heading (outer : Scope) (tag : List Char) :
    Heading.read id outer tag = (read outer tag).map heading := by
  rw [Heading.read, read]
  cases StartTag.read tag with
  | error flaw => rfl
  | ok start =>
      have names := named_opened (outer.within start.attributes) start.plainAttributes
      rw [StartTag.plainAttributes] at names
      dsimp only [bind, Except.bind, id]
      rw [Scope.elementName_expand, names, StartTag.plainAttributes]
      cases (outer.within start.attributes).expandElement start.name with
      | error flaw => rfl
      | ok name =>
          dsimp only [Except.map]
          cases (start.attributes.filter _).mapM (outer.within start.attributes).opened with
          | error flaw => rfl
          | ok opened => rfl

end Opening

/-! ## The openings of a document -/

/-- The openings of the start tags among events, the scopes of the open elements being
given, the innermost first. -/
def openingsFrom (scopes : List Scope) : List Event → List Opening
  | [] => []
  | .start tag :: rest =>
    match Opening.read (scopes.headD .outermost) tag with
    | .ok opening => opening :: openingsFrom (opening.scope :: scopes) rest
    | .error _ => []
  | .empty tag :: rest =>
    match Opening.read (scopes.headD .outermost) tag with
    | .ok opening => opening :: openingsFrom scopes rest
    | .error _ => []
  | .finish :: rest => openingsFrom scopes.tail rest
  | _ :: rest => openingsFrom scopes rest

def openingsOf (text : String) : List Opening :=
  openingsFrom [] ((transcribe text.toList).events.map Prod.fst)

section

variable (scopes : List Scope) {opening : Opening} {tag : List Char}

private theorem openingsFrom_leaf (leaf : Leaf) (rest : List Event) :
    openingsFrom scopes (leaf.event :: rest) = openingsFrom scopes rest := by
  cases leaf <;> rfl

private theorem exists_opening {outer : Scope} {heading : Heading}
    (begins : Heading.read id outer tag = .ok heading) :
    ∃ opening, Opening.read outer tag = .ok opening ∧ opening.heading = heading := by
  rw [Opening.read_heading] at begins
  cases opens : Opening.read outer tag with
  | error flaw =>
      rw [opens] at begins
      cases begins
  | ok opening =>
      rw [opens] at begins
      exact ⟨opening, rfl, Except.ok.inj begins⟩

private theorem openingsFrom_empty
    (opens : Opening.read (scopes.headD .outermost) tag = .ok opening) (rest : List Event) :
    openingsFrom scopes (.empty tag :: rest) = opening :: openingsFrom scopes rest := by
  rw [openingsFrom, opens]

private theorem openingsFrom_start
    (opens : Opening.read (scopes.headD .outermost) tag = .ok opening) (rest : List Event) :
    openingsFrom scopes (.start tag :: rest)
      = opening :: openingsFrom (opening.scope :: scopes) rest := by
  rw [openingsFrom, opens]

end

private theorem walkAll_append (first second : List Element) :
    Element.walkAll (first ++ second) = Element.walkAll first ++ Element.walkAll second := by
  fun_induction Element.walkAll first with
  | case1 => rfl
  | case2 element rest induction =>
      rw [List.cons_append, Element.walkAll, ← List.append_assoc, induction]
      rfl

theorem walkAll_cons (element : Element) (rest : List Element) :
    Element.walkAll (element :: rest)
      = element :: (Element.walkAll element.children ++ Element.walkAll rest) := by
  rw [Element.walkAll, walkAll_append]

private def Opens (openings : List Opening) (elements : List Element) : Prop :=
  List.Forall₂ Opening.Describes openings (Element.walkAll elements)

private theorem Opens.cons {openings inner : List Opening} {opening : Opening}
    {own content : Content}
    (within : Opens inner own.children) (after : Opens openings content.children) :
    Opens (opening :: (inner ++ openings))
      (content.afterElement (opening.heading.element own)).children := by
  rw [Opens, Content.afterElement, walkAll_cons]
  exact .cons ⟨rfl, rfl⟩ (List.rel_append within after)

private theorem opens_content {fragment : Fragment} {scope : Scope} {content : Content}
    (described : fragment.content id scope = .ok content) (outer : List Scope)
    (rest : List Event) :
    ∃ inner, openingsFrom (scope :: outer) (fragment.events ++ rest)
        = inner ++ openingsFrom (scope :: outer) rest ∧ Opens inner content.children := by
  induction fragment generalizing scope content outer rest with
  | done =>
      cases described
      refine ⟨[], rfl, ?_⟩
      rw [Opens, Content.empty, Element.walkAll]
      exact .nil
  | plain leaf following induction =>
      rcases exists_of_bind described with ⟨added, own, described⟩
      rcases exists_of_bind described with ⟨further, after, described⟩
      cases described
      rcases induction after outer rest with ⟨inner, opened, opens⟩
      refine ⟨inner, (openingsFrom_leaf _ leaf _).trans opened, ?_⟩
      cases added <;> exact opens
  | single tag following induction =>
      rcases exists_of_bind described with ⟨heading, begins, described⟩
      rcases exists_of_bind described with ⟨further, after, described⟩
      cases described
      rcases exists_opening begins with ⟨opening, read, rfl⟩
      rcases induction after outer rest with ⟨inner, opened, opens⟩
      refine ⟨opening :: ([] ++ inner), ?_, .cons ?_ opens⟩
      · exact (openingsFrom_empty (scope :: outer) read _).trans
          (congrArg (opening :: ·) opened)
      · rw [Opens, Content.empty, Element.walkAll]
        exact .nil
  | nested tag inside following insideInduction induction =>
      rcases exists_of_bind described with ⟨heading, begins, described⟩
      rcases exists_of_bind described with ⟨own, holds, described⟩
      rcases exists_of_bind described with ⟨further, after, described⟩
      cases described
      rcases exists_opening begins with ⟨opening, read, rfl⟩
      rcases induction after outer rest with ⟨later, afterOpened, afterOpens⟩
      rcases insideInduction holds (scope :: outer) (.finish :: (following.events ++ rest))
        with ⟨inner, opened, opens⟩
      refine ⟨opening :: (inner ++ later), ?_, .cons opens afterOpens⟩
      have begun := openingsFrom_start (scope :: outer) read
        (inside.events ++ .finish :: (following.events ++ rest))
      have parts : (Fragment.nested tag inside following).events ++ rest
          = .start tag :: (inside.events ++ .finish :: (following.events ++ rest)) := by
        simp [Fragment.events]
      rw [parts, begun, List.cons_append, List.append_assoc, ← afterOpened]
      exact congrArg (opening :: ·) opened

private theorem root_found {fragment : Fragment} {found root : Element}
    (described : fragment.root id (some found) = .ok root) :
    root = found ∧ openingsFrom [] fragment.events = [] := by
  induction fragment with
  | done =>
      cases described
      exact ⟨rfl, rfl⟩
  | plain leaf following induction =>
      rcases exists_of_bind described with ⟨added, own, described⟩
      rw [Fragment.events, openingsFrom_leaf]
      split at described
      next blank => exact induction described
      next => cases described
  | single => cases described
  | nested => cases described

private theorem opens_root {fragment : Fragment} {root : Element}
    (described : fragment.root id none = .ok root) :
    List.Forall₂ Opening.Describes (openingsFrom [] fragment.events) root.walk := by
  induction fragment with
  | done => cases described
  | plain leaf following induction =>
      rcases exists_of_bind described with ⟨added, own, described⟩
      rw [Fragment.events, openingsFrom_leaf]
      split at described
      next blank => exact induction described
      next => cases described
  | single tag following induction =>
      rcases exists_of_bind described with ⟨heading, begins, described⟩
      rcases exists_opening begins with ⟨opening, read, rfl⟩
      rcases root_found described with ⟨rfl, none⟩
      rw [Fragment.events, openingsFrom_empty [] read, none, Element.walk,
        walkAll_cons]
      refine .cons ⟨rfl, rfl⟩ ?_
      simp only [Heading.element, Content.empty, Element.walkAll]
      exact .nil
  | nested tag inside following insideInduction induction =>
      rcases exists_of_bind described with ⟨heading, begins, described⟩
      rcases exists_of_bind described with ⟨own, holds, described⟩
      rcases exists_opening begins with ⟨opening, read, rfl⟩
      rcases root_found described with ⟨rfl, none⟩
      rcases opens_content holds [] (.finish :: following.events) with ⟨inner, opened, opens⟩
      have after : openingsFrom [opening.scope] (.finish :: following.events) = [] := none
      change openingsFrom [opening.scope] _ = _ ++ openingsFrom [opening.scope] _ at opened
      rw [Fragment.events, openingsFrom_start [] read, opened, after, Element.walk,
        walkAll_cons]
      refine .cons ⟨rfl, rfl⟩ (List.rel_append opens ?_)
      rw [Element.walkAll]
      exact .nil

/-- The elements of a document are those that its start tags open. -/
theorem read_opens {text : String} {document : Document}
    (reads : Document.read text = .ok document) :
    List.Forall₂ Opening.Describes (openingsOf text) document.root.walk := by
  rcases Construction.read_eq_ok_iff.mp reads with ⟨-, builds, -⟩
  rcases Construction.built_nested builds with ⟨fragment, same⟩
  rw [same] at builds
  rw [openingsOf, same]
  exact opens_root ((Construction.follow_root fragment none).symm.trans builds)

end TimedText.Markup
