import TimedText.Markup.Tree
/-!
Events that are well nested, and the tree that they describe by recursion over their
nesting. The namespaces that prefixes stand for are handed down as a scope, so that a
declaration is known in its element and nowhere else.
-/

namespace TimedText.Markup

/-! ## Scopes -/

/-- The namespaces known at a place of a document. The empty default namespace is
none. -/
structure Scope where
  default : String
  uri? : String → Option String

namespace Scope

def outermost : Scope :=
  ⟨"", fun before => if before = "xml" then some Vocabulary.xml else none⟩

/-- A declaration hides an earlier one of its prefix. The prefix that is known without
declarations keeps its namespace. -/
def declare (scope : Scope) (declared uri : String) : Scope :=
  if declared = "" then { scope with default := uri }
  else if declared = "xml" then scope
  else
    { scope with
      uri? := fun before => if before = declared then some uri else scope.uri? before }

/-- The scope inside an element, after the declarations of its start tag in order. -/
def within (scope : Scope) (attributes : List (List Char × String)) : Scope :=
  attributes.foldl
    (fun scope (key, value) =>
      match declaredPrefix? key with
      | some declared => scope.declare declared value
      | none => scope)
    scope

/-- The scope for attributes: the default namespace is for elements only. -/
def forAttributes (scope : Scope) : Scope := { scope with default := "" }

def resolve (scope : Scope) (before part : String) : Except Flaw String :=
  if before = "" then .ok (Name.qualified scope.default part)
  else
    match scope.uri? before with
    | some uri => .ok (Name.qualified uri part)
    | none => .error (.unboundPrefix before)

def elementName (scope : Scope) (written : List Char) : Except Flaw String :=
  match prefixAndPart? written with
  | some (before, part) => scope.resolve before part
  | none => scope.resolve "" (String.ofList written)

def attributeName (scope : Scope) (written : List Char) : Except Flaw String :=
  match prefixAndPart? written with
  | some (before, part) => scope.resolve before part
  | none => .ok (String.ofList written)

def named (scope : Scope) (attributes : List (List Char × String)) :
    Except Flaw (List (String × String)) :=
  attributes.mapM fun (key, value) => do
    let name ← scope.attributeName key
    return (name, value)

end Scope

theorem exists_of_bind {α β : Type} {first : Except Flaw α} {next : α → Except Flaw β}
    {result : β} (succeeds : (first >>= next) = .ok result) :
    ∃ value, first = .ok value ∧ next value = .ok result := by
  cases first with
  | error flaw => cases succeeds
  | ok value => exact ⟨value, rfl, succeeds⟩

/-! ## Fragments -/

inductive Leaf where
  | text (characters : List Char)
  | literal (characters : List Char)
  | reference (name : List Char)
  | declaration (content : List Char)
  | docType (content : List Char)
  | comment
  | instruction

namespace Leaf

def event : Leaf → Event
  | .text characters => .text characters
  | .literal characters => .literal characters
  | .reference name => .reference name
  | .declaration content => .declaration content
  | .docType content => .docType content
  | .comment => .comment
  | .instruction => .instruction

def characterData : Leaf → Except Flaw (Option String)
  | .text characters => .ok (some (String.ofList (Text.unifiedLineEnds characters)))
  | .literal characters => .ok (some (String.ofList characters))
  | .reference name =>
    match meaning? name with
    | some character => .ok (some character.toString)
    | none => .error (.undefinedEntity (String.ofList name))
  | .declaration _ | .docType _ | .comment | .instruction => .ok none

end Leaf

inductive Fragment where
  | done
  | plain (leaf : Leaf) (following : Fragment)
  | single (tag : List Char) (following : Fragment)
  | nested (tag : List Char) (inside following : Fragment)

/-- Character data and the elements after it, each with its own tail. -/
structure Content where
  text : Option String
  children : List Element

namespace Content

def empty : Content := ⟨none, []⟩

def afterData (added : Option String) (content : Content) : Content :=
  match added with
  | some added => { content with text := some (added ++ content.text.getD "") }
  | none => content

/-- The character data up to the next element is the tail of the element before it. -/
def afterElement (element : Element) (content : Content) : Content :=
  ⟨none, { element with tail := content.text } :: content.children⟩

private def characterData (content : Content) : String :=
  content.text.getD "" ++ Element.textContentAll content.children

private theorem afterElement_characterData (content : Content) (element : Element) :
    (content.afterElement element).characterData
      = element.textContent ++ content.characterData := by
  cases element
  rw [characterData, afterElement, Element.textContentAll, Element.textContent,
    Element.textContent, String.append_assoc]
  exact String.empty_append

end Content

structure Heading where
  name : String
  attributes : List (String × String)
  scope : Scope

namespace Heading

def read (attributeScope : Scope → Scope) (outer : Scope) (tag : List Char) :
    Except Flaw Heading := do
  let tag ← StartTag.read tag
  let scope := outer.within tag.attributes
  let name ← scope.elementName tag.name
  let attributes ← (attributeScope scope).named
    (tag.attributes.filter fun pair => (declaredPrefix? pair.1).isNone)
  return ⟨name, attributes, scope⟩

def element (heading : Heading) (content : Content) : Element :=
  ⟨heading.name, heading.attributes, content.children, content.text, none⟩

private theorem textContent_element (heading : Heading) (content : Content) :
    (heading.element content).textContent = content.characterData := by
  rw [element, Element.textContent, Content.characterData]

end Heading

namespace Fragment

def events : Fragment → List Event
  | .done => []
  | .plain leaf following => leaf.event :: following.events
  | .single tag following => .empty tag :: following.events
  | .nested tag inside following =>
    .start tag :: (inside.events ++ .finish :: following.events)

def content (attributeScope : Scope → Scope) (scope : Scope) :
    Fragment → Except Flaw Content
  | .done => .ok .empty
  | .plain leaf following => do
    let added ← leaf.characterData
    let content ← following.content attributeScope scope
    return content.afterData added
  | .single tag following => do
    let heading ← Heading.read attributeScope scope tag
    let content ← following.content attributeScope scope
    return content.afterElement (heading.element .empty)
  | .nested tag inside following => do
    let heading ← Heading.read attributeScope scope tag
    let own ← inside.content attributeScope heading.scope
    let content ← following.content attributeScope scope
    return content.afterElement (heading.element own)

/-- The one element that stands in no other. Around it there may only be blanks; `found`
holds it once it has been found. -/
def root (attributeScope : Scope → Scope) (found : Option Element) :
    Fragment → Except Flaw Element
  | .done =>
    match found with
    | some element => .ok element
    | none => .error .noRoot
  | .plain leaf following => do
    let added ← leaf.characterData
    if added.all Text.allBlank then following.root attributeScope found
    else if found.isSome then .error .contentAfterRoot
    else .error .textBeforeRoot
  | .single tag following =>
    if found.isSome then .error .contentAfterRoot
    else do
      let heading ← Heading.read attributeScope .outermost tag
      following.root attributeScope (some (heading.element .empty))
  | .nested tag inside following =>
    if found.isSome then .error .contentAfterRoot
    else do
      let heading ← Heading.read attributeScope .outermost tag
      let own ← inside.content attributeScope heading.scope
      following.root attributeScope (some (heading.element own))

/-- The element that a fragment with nothing else but blanks describes. -/
def document (fragment : Fragment) : Except Flaw Element :=
  fragment.root Scope.forAttributes none

/-! ## Character data -/

def characterData : Fragment → String
  | .done => ""
  | .plain leaf following =>
    leaf.characterData.toOption.join.getD "" ++ following.characterData
  | .single _ following => following.characterData
  | .nested _ inside following => inside.characterData ++ following.characterData

def innerCharacterData : Fragment → String
  | .done => ""
  | .plain _ following | .single _ following => following.innerCharacterData
  | .nested _ inside following => inside.characterData ++ following.innerCharacterData

private theorem content_characterData {attributeScope : Scope → Scope} {fragment : Fragment}
    {scope : Scope} {content : Content}
    (described : fragment.content attributeScope scope = .ok content) :
    content.characterData = fragment.characterData := by
  induction fragment generalizing scope content with
  | done =>
      cases described
      rfl
  | plain leaf following induction =>
      rcases exists_of_bind described with ⟨added, own, described⟩
      rcases exists_of_bind described with ⟨further, after, described⟩
      cases described
      rw [characterData, own, ← induction after]
      cases added with
      | none => exact String.empty_append.symm
      | some added => exact String.append_assoc
  | single tag following induction =>
      rcases exists_of_bind described with ⟨heading, begins, described⟩
      rcases exists_of_bind described with ⟨further, after, described⟩
      cases described
      rw [Content.afterElement_characterData, Heading.textContent_element, characterData,
        ← induction after]
      exact String.empty_append
  | nested tag inside following insideInduction induction =>
      rcases exists_of_bind described with ⟨heading, begins, described⟩
      rcases exists_of_bind described with ⟨own, holds, described⟩
      rcases exists_of_bind described with ⟨further, after, described⟩
      cases described
      rw [Content.afterElement_characterData, Heading.textContent_element, characterData,
        ← insideInduction holds, ← induction after]

theorem root_characterData {attributeScope : Scope → Scope} {fragment : Fragment}
    {found : Option Element} {element : Element}
    (described : fragment.root attributeScope found = .ok element) :
    element.textContent
      = (found.elim "" Element.textContent) ++ fragment.innerCharacterData := by
  induction fragment generalizing found with
  | done =>
      cases found with
      | none => cases described
      | some found =>
          cases described
          exact String.append_empty.symm
  | plain leaf following induction =>
      rcases exists_of_bind described with ⟨added, own, described⟩
      split at described
      next blank => exact induction described
      next notBlank => split at described <;> cases described
  | single tag following induction =>
      cases found with
      | some found => cases described
      | none =>
          rcases exists_of_bind described with ⟨heading, begins, described⟩
          rw [induction described]
          rfl
  | nested tag inside following insideInduction induction =>
      cases found with
      | some found => cases described
      | none =>
          rcases exists_of_bind described with ⟨heading, begins, described⟩
          rcases exists_of_bind described with ⟨own, holds, described⟩
          rw [induction described, innerCharacterData, ← content_characterData holds]
          exact String.empty_append.symm

end Fragment

end TimedText.Markup
