import TimedText.Check.Context
import TimedText.Timing.Rules
/-!
Checks of content elements by themselves: their timing attributes, loose text,
and line ends in their text.
-/

namespace TimedText.Check

open Timing

def checkUntimed (element : Element) : Verdict :=
  let presence := Presence.of element
  .when (!presence.isNone)
    (.against (.fail .ebuttdTimingAttributeConstraint (Timing.location element)
      s!"Prohibited timing attributes {presence.describe} present"))

def checkNotNested (enclosing : Presence) (element : Element) : Verdict :=
  .when (!(Presence.of element).isNone && !enclosing.isNone)
    (.against (.fail .ebuttdNestedTimingConstraint s!"{element.tag} element"
      "Nested elements with timing attributes prohibited"))

def hasLooseText (element : Element) : Bool :=
  Text.hasContent element.text
    || element.children.any fun child => Text.hasContent child.tail

def checkNoLooseText (element : Element) : Verdict :=
  .when (hasLooseText element)
    (.against (.fail .bbcTextSpanConstraint (Timing.location element)
      "Text content found in prohibited location."))

def countLines (text : String) : Nat :=
  (Text.split '\n' text).countP fun line => !Text.allBlank line

/-- Line ends in text count as blanks when it is shown. Text on several lines
without an element that breaks them is likely to be a mistake. -/
def checkLineBreaks (uri : String) (element : Element) : Verdict :=
  let breaks := element.descendantsNamed (Name.qualified uri "br")
  .when (1 < countLines element.textContent && breaks.isEmpty)
    (.remark (.warn .ttmlElementBr (Timing.location element)
      "Text content contains line breaks but no <br> elements."))

end TimedText.Check
