import TimedText.Check.Content
import TimedText.Check.Definition
import TimedText.Check.Head
import TimedText.Check.Identifier
import TimedText.Check.Parameter
import TimedText.Check.Pruning
import TimedText.Check.Script
import TimedText.Check.Timing
/-!
Checks as data, and what it means to run one. Simple checks look at one element.
Composite checks look for certain elements, enter each of them in turn, and run
other checks there; all of these have to hold.
-/

namespace TimedText.Check

open Timing

structure Violation where
  element : String
  reason : String
deriving DecidableEq, Repr

/-- A schema: the first violation in a document, if there is one. -/
abbrev Schema := Element → Option Violation

def checkSchema (name : String) (schema : Schema) (root : Element) : Verdict :=
  match schema root with
  | none =>
    .remark (.pass .xmlXsd "Parsed document" s!"{name} XSD Validation passes")
  | some violation =>
    .against (.fail .xmlXsd violation.element
      s!"Fails {name} XSD validation: {violation.reason}")

inductive ElementCheck where
  | uniqueIds
  | unqualifiedIds
  | hasId
  | references
  | root
  | timeBase (allowed : List String) (required : Bool)
  | activeArea (required : Bool)
  | cellResolution (required : Bool)
  | contentProfiles (accepted denied : List String) (required : Bool)
  | copyright (required : Bool)
  | actors
  | styling
  | layout
  | styleReferences
  | inlineStyles
  | regionReferences
  | untimed
  | notNested
  | noLooseText
  | lineBreaks
  | vocabulary
  | descriptionTypes (registry : Registry)
  | contentDescriptors (registry : Registry)
  | captionTiming (segment : Segment Float)
  | scriptTiming (segment : Segment Float)
  | schema (name : String) (schema : Schema)
  | head (inner : List ElementCheck)
  | body (inner : List ElementCheck)
  | divisions (inner : List ElementCheck) (nested : Bool)
  | paragraphs (inner : List ElementCheck)
  | spans (inner : List ElementCheck) (textRequired nestingPermitted : Bool)
  /-- A check that is given by what it does. -/
  | custom (name : String) (run : Element → Run Bool)

def ElementCheck.name : ElementCheck → String
  | .uniqueIds => "duplicateXmlIdCheck"
  | .unqualifiedIds => "unqualifiedIdAttributeCheck"
  | .hasId => "requireXmlIdCheck"
  | .references => "IDREFSelementApplicabilityCheck"
  | .root => "ttTagAndNamespaceCheck"
  | .timeBase _ _ => "timeBaseCheck"
  | .activeArea _ => "activeAreaCheck"
  | .cellResolution _ => "cellResolutionCheck"
  | .contentProfiles _ _ _ => "contentProfilesCheck"
  | .copyright _ => "copyrightCheck"
  | .actors => "actorRefsCheck"
  | .styling => "stylingCheck"
  | .layout => "layoutCheck"
  | .styleReferences => "styleRefsCheck"
  | .inlineStyles => "inlineStyleAttributesCheck"
  | .regionReferences => "regionRefsCheck"
  | .untimed => "noTimingAttributesCheck"
  | .notNested => "noNestedTimedElementsCheck"
  | .noLooseText => "noTextChildren"
  | .lineBreaks => "checkLineBreaks"
  | .vocabulary => "unrecognisedVocabularyPruner"
  | .descriptionTypes _ => "daptmDescTypeCheck"
  | .contentDescriptors _ => "daptmRepresentsCheck"
  | .captionTiming _ => "captionTimingCheck"
  | .scriptTiming _ => "daptTimingCheck"
  | .schema _ _ => "xsdValidator"
  | .head _ => "headCheck"
  | .body _ => "bodyCheck"
  | .divisions _ _ => "divCheck"
  | .paragraphs _ => "pCheck"
  | .spans _ _ _ => "spanCheck"
  | .custom name _ => name

/-! ## Composite checks -/

def identifiedLocation (element : Element) (tag : String) : String :=
  element.tag ++ "/" ++ tag ++ " xml:id " ++ element.xmlIdOr "omitted"

def checkHead (inner : Element → Run Bool) (root : Element) : Run Bool := do
  let context ← Run.context
  let tag := Name.qualified context.uri "head"
  let location := childLocation root tag
  match root.childrenNamed tag with
  | [head] =>
    let valid ← inner head
    if valid then Run.note [.pass .ttmlElementHead location "Head checked"]
    return valid
  | heads =>
    let code : Code :=
      if heads.isEmpty then .ebuttdHeadElementConstraint else .ttmlElementHead
    Run.judge (.against
      (.fail code location s!"Found {heads.length} head elements, expected 1"))

def checkBody (inner : Element → Run Bool) (root : Element) : Run Bool := do
  let context ← Run.context
  let tag := Name.qualified context.uri "body"
  let location := childLocation root tag
  match root.childrenNamed tag with
  | [body] =>
    let valid ← Run.inside (Presence.of body) (inner body)
    if valid then Run.note [.pass .ttmlElementBody location "Body checked"]
    return valid
  | bodies =>
    Run.judge (.against (.fail .ttmlElementBody location
      s!"Found {bodies.length} body elements, expected 1"))

def countDivisions (tag : String) (element : Element) : Verdict :=
  let count := (element.childrenNamed tag).length
  let location := childLocation element tag
  Verdict.when (element.localPart == "body" && count == 0)
      (.against (.fail .ebuttdEmptyBodyConstraint location
        "Found 0 div elements, require >0"))
    ++ Verdict.when (element.localPart == "div" && count != 0)
      (.against (.fail .ebuttdNestedDivConstraint location
        s!"Found {count} div children of a div, require 0"))

mutual
/-- Runs a check on the divisions in an element, and where divisions may be
nested, on those in them first. -/
def checkDivisions (nested : Bool) (inner : Element → Run Bool) :
    Element → Run Bool
  | ⟨tag, attributes, children, text, tail⟩ => do
    let context ← Run.context
    let division := Name.qualified context.uri "div"
    let counted ← Run.judge
      (countDivisions division ⟨tag, attributes, children, text, tail⟩)
    let checked ← checkEachDivision nested inner division children
    return counted && checked

def checkEachDivision (nested : Bool) (inner : Element → Run Bool)
    (division : String) : List Element → Run Bool
  | [] => return true
  | first :: rest => do
    if first.tag == division then
      let valid ← Run.inside (Presence.of first) do
        let within ← if nested then checkDivisions nested inner first else pure true
        let own ← inner first
        return within && own
      let others ← checkEachDivision nested inner division rest
      return valid && others
    else checkEachDivision nested inner division rest
end

def checkInside (inner : Element → Run Bool) : List Element → Run Bool
  | [] => return true
  | first :: rest => do
    let valid ← Run.inside (Presence.of first) (inner first)
    let others ← checkInside inner rest
    return valid && others

def checkParagraphs (inner : Element → Run Bool) (element : Element) : Run Bool := do
  let context ← Run.context
  let tag := Name.qualified context.uri "p"
  let paragraphs := element.childrenNamed tag
  let counted ← Run.judge
    (.when paragraphs.isEmpty
      (.against (.fail .ebuttdEmptyDivConstraint (identifiedLocation element tag)
        "Found 0 p children of a div, require >0")))
  let checked ← checkInside inner paragraphs
  return counted && checked

def countSpans (textRequired nestingPermitted : Bool) (tag : String)
    (element : Element) : Verdict :=
  let count := (element.childrenNamed tag).length
  let location := identifiedLocation element tag
  Verdict.when (element.localPart == "p" && count == 0 && textRequired)
      (.against (.fail .bbcTextSpanConstraint location
        "Found 0 span elements; text content needs to be in a styled span"))
    ++ Verdict.when (element.localPart == "span" && count != 0 && !nestingPermitted)
      (.against (.fail .ebuttdNestedSpanConstraint location
        s!"Found {count} span element children of span, require 0"))

mutual
/-- Runs a check on the spans in an element and on those in them. The timing of
the element counts together with that of what it was entered from. -/
def checkSpans (textRequired nestingPermitted : Bool) (inner : Element → Run Bool) :
    Element → Run Bool
  | ⟨tag, attributes, children, text, tail⟩ => do
    let element : Element := ⟨tag, attributes, children, text, tail⟩
    let context ← Run.context
    let span := Name.qualified context.uri "span"
    let counted ← Run.judge (countSpans textRequired nestingPermitted span element)
    let checked ← Run.inside (context.enclosing.union (Presence.of element))
      (checkEachSpan textRequired nestingPermitted inner span children)
    return counted && checked

def checkEachSpan (textRequired nestingPermitted : Bool)
    (inner : Element → Run Bool) (span : String) : List Element → Run Bool
  | [] => return true
  | first :: rest => do
    if first.tag == span then
      let own ← inner first
      let within ← checkSpans textRequired nestingPermitted inner first
      let others ← checkEachSpan textRequired nestingPermitted inner span rest
      return own && within && others
    else checkEachSpan textRequired nestingPermitted inner span rest
end

/-! ## Running -/

def judgeBy (rule : String → Verdict) : Run Bool := do
  let context ← Run.context
  Run.judge (rule context.uri)

mutual
def ElementCheck.run : ElementCheck → Element → Run Bool
  | .uniqueIds, element => checkIds element
  | .unqualifiedIds, element => Run.judge (checkUnqualifiedIds element)
  | .hasId, element => Run.judge (checkHasId element)
  | .references, element => Run.judge (checkAllReferences element)
  | .root, element => fileRoot element
  | .timeBase allowed required, element =>
    judgeBy fun uri => checkTimeBase allowed required uri element
  | .activeArea required, element => Run.judge (checkActiveArea required element)
  | .cellResolution required, element => fileCellResolution required element
  | .contentProfiles accepted denied required, element =>
    judgeBy fun uri => checkContentProfiles accepted denied required uri element
  | .copyright required, element =>
    judgeBy fun uri => checkCopyright required uri element
  | .actors, element => Run.judge (checkActors element)
  | .styling, element => fileStyles element
  | .layout, element => fileRegions element
  | .styleReferences, element => checkStyleReferences element
  | .inlineStyles, element => judgeBy fun uri => checkInlineStyles uri element
  | .regionReferences, element => checkRegionReferences element
  | .untimed, element => Run.judge (checkUntimed element)
  | .notNested, element => do
    let context ← Run.context
    Run.judge (checkNotNested context.enclosing element)
  | .noLooseText, element => Run.judge (checkNoLooseText element)
  | .lineBreaks, element => judgeBy fun uri => checkLineBreaks uri element
  | .vocabulary, element => checkVocabulary element
  | .descriptionTypes registry, element =>
    judgeBy fun uri => checkDescriptionTypes registry uri element
  | .contentDescriptors registry, element =>
    judgeBy fun uri => checkContentDescriptors registry uri element
  | .captionTiming segment, element => do
    let context ← Run.context
    Run.judge (checkCaptionTiming segment context element)
  | .scriptTiming segment, element =>
    judgeBy fun uri => checkScriptTiming segment uri element
  | .schema name schema, element => Run.judge (checkSchema name schema element)
  | .head inner, element => checkHead (runAll inner) element
  | .body inner, element => checkBody (runAll inner) element
  | .divisions inner nested, element => checkDivisions nested (runAll inner) element
  | .paragraphs inner, element => checkParagraphs (runAll inner) element
  | .spans inner textRequired nestingPermitted, element =>
    checkSpans textRequired nestingPermitted (runAll inner) element
  | .custom _ run, element => run element

def runAll : List ElementCheck → Element → Run Bool
  | [], _ => return true
  | first :: rest, element => do
    let valid ← first.run element
    let others ← runAll rest element
    return valid && others
end

end TimedText.Check
