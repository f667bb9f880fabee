import TimedText.Check.Context
/-!
Checks of the metadata of scripts: what descriptions are about, and what content
a script and its parts represent. A content descriptor is a sequence of words
between points, each making the ones before it more special. Words that start
with `x-` are for users to choose.
-/

namespace TimedText.Check

abbrev Registry := List String

namespace Registry

def contentDescriptors : Registry := [
  "audio", "audio.dialogue", "audio.nonDialogueSounds", "visual",
  "visual.dialogue", "visual.nonText", "visual.text", "visual.text.title",
  "visual.text.credit", "visual.text.location"]

def descriptionTypes : Registry := ["pronunciationNote", "scene", "plotSignificance"]

end Registry

def isUserDefined (word : String) : Bool :=
  "x-".toList.isPrefixOf word.toList

/-- Whether a text is a content descriptor: what stands before its first
user-defined word is registered. -/
def isContentDescriptor (registry : Registry) (descriptor : String) : Bool :=
  let tokens := Text.split '.' descriptor
  match tokens.takeWhile fun token => !isUserDefined token with
  | [] => !tokens.isEmpty
  | registered => registry.contains (".".intercalate registered)

def isSubtype (descriptor parent : String) : Bool :=
  (Text.split '.' parent).isPrefixOf (Text.split '.' descriptor)

/-! ## Descriptions -/

def isDescriptionType (registry : Registry) (value : String) : Bool :=
  value.isEmpty || isUserDefined value || registry.contains value

def checkDescriptionTypes (registry : Registry) (uri : String) (root : Element) :
    Verdict :=
  let code := Code.daptMetadataDesctypeValidity
  let descriptions := root.descendantsNamed (Name.relative uri "#metadata" "desc")
  let types := descriptions.filterMap fun description =>
    description.attribute? (Name.qualified Vocabulary.scriptMetadata "descType")
  let refused := types.filter fun value => !isDescriptionType registry value
  if refused.isEmpty then
    let count := types.length
    if 0 < count then
      .remark (.pass code "ttm:desc elements"
        s!"{count} well-formed descType attributes found")
    else
      .remark (.info code "ttm:desc elements" s!"{count} descType attributes found")
  else
    Verdict.forEach refused fun value =>
      .against (.fail code "ttm:desc element"
        s!"{value} is not a permitted value for daptm:descType")

/-! ## Content -/

def representsName : String :=
  Name.qualified Vocabulary.scriptMetadata "represents"

def scriptDescriptors (registry : Registry) (root : Element) :
    Verdict × List String :=
  let code := Code.daptMetadataScriptRepresents
  match root.attribute? (Name.qualified Vocabulary.scriptMetadata "scriptRepresents") with
  | none =>
    (.against (.fail code s!"{root.tag} element"
      "Required daptm:scriptRepresents attribute is missing"), [])
  | some value =>
    let descriptors := Text.words value
    let refused := descriptors.filter fun text => !isContentDescriptor registry text
    (Verdict.forEach refused fun descriptor =>
      .against (.fail code s!"{root.tag} element daptm:scriptRepresents attribute"
        s!"Value {descriptor} is not a valid content descriptor"),
      descriptors.filter (isContentDescriptor registry))

def representingTags (uri : String) : List String :=
  ["tt", "body", "div", "p", "span"].map (Name.qualified uri)

def representsLocation (element : Element) : String :=
  s!"{element.tag} element daptm:represents attribute"

def checkRepresents (registry : Registry) (uri : String) (accepted : List String)
    (element : Element) : Verdict :=
  match element.attribute? representsName with
  | none => .silent
  | some value =>
    let location := representsLocation element
    Verdict.when (!(representingTags uri).contains element.tag)
        (.against (.fail .daptMetadataRepresents s!"{element.tag} element"
          "daptm:represents attribute not permitted on this element"))
      ++ Verdict.when (!isContentDescriptor registry value)
        (.against (.fail .daptMetadataContentDescriptor location
          s!"Invalid content descriptor \"{value}\""))
      ++ Verdict.when (!accepted.any (isSubtype value))
        (.against (.fail .daptMetadataRepresents location
          (s!"Content descriptor \"{value}\" is not a subtype of "
            ++ s!"scriptRepresents values {Text.quotedList accepted}")))

/-- Whether an element needs to represent something: a paragraph or span, or a
division without divisions in it. -/
def needsContent (uri : String) (element : Element) : Bool :=
  let division := Name.qualified uri "div"
  element.tag == Name.qualified uri "p" || element.tag == Name.qualified uri "span"
    || (element.tag == division && (element.childrenNamed division).isEmpty)

mutual
/-- The verdict on what an element represents, by itself or as part of what is
around it, and on the elements in it that may represent content. -/
def checkComputed (registry : Registry) (uri inherited : String) :
    Element → Verdict
  | ⟨tag, attributes, children, text, tail⟩ =>
    let element : Element := ⟨tag, attributes, children, text, tail⟩
    let computed := (element.attribute? representsName).getD inherited
    let own := Verdict.when
      (needsContent uri element && !isContentDescriptor registry computed)
      (.against (.fail .daptMetadataRepresents (representsLocation element)
        s!"Computed value \"{computed}\" is not valid"))
    own ++ checkComputedOfAll registry uri computed children

def checkComputedOfAll (registry : Registry) (uri inherited : String) :
    List Element → Verdict
  | [] => .silent
  | first :: rest =>
    if (representingTags uri).contains first.tag then
      checkComputed registry uri inherited first
        ++ checkComputedOfAll registry uri inherited rest
    else checkComputedOfAll registry uri inherited rest
end

def checkContentDescriptors (registry : Registry) (uri : String) (root : Element) :
    Verdict :=
  let (script, accepted) := scriptDescriptors registry root
  script
    ++ Verdict.forEach root.descendants (checkRepresents registry uri accepted)
    ++ checkComputed registry uri "" root

end TimedText.Check
