import TimedText.Markup.Element
import TimedText.Markup.Event
import TimedText.Markup.Reference
import TimedText.Text.LineEnd
/-!
The tree of elements that a sequence of events describes. Prefixes are resolved
in the innermost declaration around them, the element's own declarations
included. A prefix that is not declared is a flaw; an attribute without prefix
is in no namespace, and an element without prefix is in the default one.
-/

namespace TimedText.Markup

/-- The namespaces that prefixes stand for, the innermost declaration first. The
default namespace has the empty prefix. -/
abbrev Bindings := List (String × String)

def prefixAndPart? (written : List Char) : Option (String × String) :=
  match written.span (· != ':') with
  | (before, _ :: part) => some (String.ofList before, String.ofList part)
  | (_, []) => none

def qualify (bindings : Bindings) (before part : String) : Except Flaw String :=
  if before = "xml" then .ok (Name.qualified Vocabulary.xml part)
  else
    match bindings.find? fun binding => binding.1 == before with
    | some (_, uri) => .ok (Name.qualified uri part)
    | none => if before.isEmpty then .ok part else .error (.unboundPrefix before)

def elementName (bindings : Bindings) (written : List Char) : Except Flaw String :=
  match prefixAndPart? written with
  | some (before, part) => qualify bindings before part
  | none => qualify bindings "" (String.ofList written)

def attributeName (bindings : Bindings) (written : List Char) :
    Except Flaw String :=
  match prefixAndPart? written with
  | some (before, part) => qualify bindings before part
  | none => .ok (String.ofList written)

/-! ## Start tags -/

def declaredPrefix? (key : List Char) : Option String :=
  if key = "xmlns".toList then some ""
  else if "xmlns:".toList.isPrefixOf key then some (String.ofList (key.drop 6))
  else none

structure StartTag where
  name : List Char
  attributes : List (List Char × String)
deriving DecidableEq, Repr

/-- Reads a start tag. The first thing wrong with it, from left to right, is its
flaw. -/
def StartTag.read (tag : List Char) : Except Flaw StartTag := do
  let written := attributesOf true tag
  let attributes ← written.read.mapM fun pair =>
    match expand pair.value with
    | .ok value => Except.ok (pair.key, String.ofList value)
    | .error flaw => .error (.inReference flaw)
  match written.flaw with
  | some flaw => .error (.inAttribute flaw)
  | none => .ok ⟨tagName tag, attributes⟩

/-- The declarations of a start tag, the last one first. -/
def StartTag.declarations (tag : StartTag) : Bindings :=
  (tag.attributes.filterMap fun (key, value) =>
    (declaredPrefix? key).map fun declared => (declared, value)).reverse

def StartTag.qualifiedAttributes (tag : StartTag) (bindings : Bindings) :
    Except Flaw (List (String × String)) :=
  (tag.attributes.filter fun pair => (declaredPrefix? pair.1).isNone).mapM
    fun (key, value) => do
      let name ← attributeName bindings key
      return (name, value)

/-! ## Construction -/

/-- An element that has begun and not ended, its children so far standing last
first. -/
structure Frame where
  tag : String
  attributes : List (String × String)
  children : List Element
  text : Option String
  bindings : Bindings

namespace Frame

def element (frame : Frame) : Element :=
  ⟨frame.tag, frame.attributes, frame.children.reverse, frame.text, none⟩

def addText (frame : Frame) (added : String) : Frame :=
  match frame.children with
  | [] => { frame with text := some (frame.text.getD "" ++ added) }
  | child :: earlier =>
    { frame with
      children := { child with tail := some (child.tail.getD "" ++ added) } :: earlier }

def addChild (frame : Frame) (child : Element) : Frame :=
  { frame with children := child :: frame.children }

end Frame

/-- A tree that is being put together: the elements that have begun, the
innermost first, and the root once it has ended. -/
structure Construction where
  frames : List Frame
  root : Option Element

namespace Construction

def empty : Construction := ⟨[], none⟩

def bindings (construction : Construction) : Bindings :=
  match construction.frames with
  | [] => []
  | frame :: _ => frame.bindings

def begin (construction : Construction) (tag : List Char) : Except Flaw Frame := do
  if construction.frames.isEmpty && construction.root.isSome then
    throw .contentAfterRoot
  let tag ← StartTag.read tag
  let bindings := tag.declarations ++ construction.bindings
  let name ← elementName bindings tag.name
  let attributes ← tag.qualifiedAttributes bindings
  return ⟨name, attributes, [], none, bindings⟩

def add (construction : Construction) (element : Element) :
    Except Flaw Construction :=
  match construction.frames, construction.root with
  | parent :: outer, _ =>
    .ok { construction with frames := parent.addChild element :: outer }
  | [], none => .ok { construction with root := some element }
  | [], some _ => .error .contentAfterRoot

def addText (construction : Construction) (added : String) :
    Except Flaw Construction :=
  match construction.frames with
  | frame :: outer =>
    .ok { construction with frames := frame.addText added :: outer }
  | [] =>
    if Text.allBlank added then .ok construction
    else if construction.root.isSome then .error .contentAfterRoot
    else .error .textBeforeRoot

def afterEvent (construction : Construction) : Event → Except Flaw Construction
  | .start tag => do
    let frame ← construction.begin tag
    return { construction with frames := frame :: construction.frames }
  | .empty tag => do
    let frame ← construction.begin tag
    construction.add frame.element
  | .finish =>
    match construction.frames with
    | frame :: outer => { construction with frames := outer }.add frame.element
    | [] => .error (.unmatchedEnd "")
  | .text characters =>
    construction.addText (String.ofList (Text.unifiedLineEnds characters))
  | .literal characters => construction.addText (String.ofList characters)
  | .reference name =>
    match meaning? name with
    | some character => construction.addText character.toString
    | none => .error (.undefinedEntity (String.ofList name))
  | .declaration _ | .docType _ | .comment | .instruction => .ok construction

def afterEvents (construction : Construction) :
    List (Event × List Char) → Except Failure Construction
  | [] => .ok construction
  | (event, rest) :: following =>
    match construction.afterEvent event with
    | .ok construction => construction.afterEvents following
    | .error flaw => .error ⟨flaw, rest⟩

end Construction

end TimedText.Markup
