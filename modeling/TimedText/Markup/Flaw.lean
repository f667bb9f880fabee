/-!
Everything that can be wrong with markup, and the sentence that says so.
-/

namespace TimedText.Markup

inductive DigitFlaw where
  | missing
  | foreign
  | tooLarge
deriving DecidableEq, Repr

/-- What is wrong with a reference inside an attribute value. Places count the
bytes of the value. -/
inductive ReferenceFlaw where
  | unclosed (start length : Nat)
  | unknown (start stop : Nat) (name : String)
  | sign
  | digits (flaw : DigitFlaw)
  | zero
  | noCharacter (code : Nat)
deriving DecidableEq, Repr

/-- What is wrong with an attribute. Places count the bytes of its tag. -/
inductive AttributeFlaw where
  | missingEquals (place : Nat)
  | missingValue (place : Nat)
  | unquoted (place : Nat)
  | missingQuote (place : Nat) (quote : Char)
  | repeated (place previous : Nat)
deriving DecidableEq, Repr

inductive Flaw where
  | unclosedReference
  | unclosedTag
  | unknownMarkup
  | unclosedLiteral
  | unclosedComment
  | unclosedDocType
  | unclosedInstruction
  | namelessDocType
  | mismatchedEnd (expected found : String)
  | unmatchedEnd (found : String)
  | inAttribute (flaw : AttributeFlaw)
  | inReference (flaw : ReferenceFlaw)
  | unboundPrefix (written : String)
  | undefinedEntity (name : String)
  | textBeforeRoot
  | contentAfterRoot
  | unclosedElement
  | noRoot
deriving DecidableEq, Repr

def DigitFlaw.message : DigitFlaw → String
  | .missing => "cannot parse integer from empty string"
  | .foreign => "invalid digit found in string"
  | .tooLarge => "number too large to fit in target type"

def ReferenceFlaw.message : ReferenceFlaw → String
  | .unclosed start length =>
    s!"Error while escaping character at range {start}..{length}: "
      ++ "Cannot find ';' after '&'"
  | .unknown start stop name =>
    s!"at {start}..{stop}: unrecognized entity \x60{name}\x60"
  | .sign => "invalid character reference: unexpected number sign"
  | .digits flaw => "invalid character reference: " ++ flaw.message
  | .zero =>
    "invalid character reference: 0x0 character is not permitted in XML"
  | .noCharacter code =>
    s!"invalid character reference: \x60{code}\x60 is not a valid codepoint"

def AttributeFlaw.message : AttributeFlaw → String
  | .missingEquals place =>
    s!"position {place}: attribute key must be directly followed by "
      ++ "\x60=\x60 or space"
  | .missingValue place =>
    s!"position {place}: \x60=\x60 must be followed by an attribute value"
  | .unquoted place =>
    s!"position {place}: attribute value must be enclosed in "
      ++ "\x60\"\x60 or \x60'\x60"
  | .missingQuote place quote =>
    s!"position {place}: missing closing quote \x60{quote}\x60 "
      ++ "in attribute value"
  | .repeated place previous =>
    s!"position {place}: duplicated attribute, "
      ++ s!"previous declaration at position {previous}"

private def unended (kind closing : String) : String :=
  s!"syntax error: {kind} not closed: \x60{closing}\x60 not found "
    ++ "before end of input"

def Flaw.message : Flaw → String
  | .unclosedReference =>
    "ill-formed document: entity or character reference not closed: "
      ++ "\x60;\x60 not found before end of input"
  | .unclosedTag => unended "tag" ">"
  | .unknownMarkup => "syntax error: unknown or missed symbol in markup"
  | .unclosedLiteral => unended "CDATA" "]]>"
  | .unclosedComment => unended "comment" "-->"
  | .unclosedDocType => unended "DOCTYPE" ">"
  | .unclosedInstruction =>
    unended "processing instruction or xml declaration" "?>"
  | .namelessDocType =>
    "ill-formed document: \x60<!DOCTYPE>\x60 declaration does not contain "
      ++ "a name of a document type"
  | .mismatchedEnd expected found =>
    s!"ill-formed document: expected \x60</{expected}>\x60, "
      ++ s!"but \x60</{found}>\x60 was found"
  | .unmatchedEnd found =>
    s!"ill-formed document: close tag \x60</{found}>\x60 "
      ++ "does not match any open tag"
  | .inAttribute flaw => flaw.message
  | .inReference flaw => flaw.message
  | .unboundPrefix written => s!"unbound prefix {written}"
  | .undefinedEntity name => s!"undefined entity &{name};"
  | .textBeforeRoot => "text before document element"
  | .contentAfterRoot => "junk after document element"
  | .unclosedElement => "unclosed token"
  | .noRoot => "no element found"

end TimedText.Markup
