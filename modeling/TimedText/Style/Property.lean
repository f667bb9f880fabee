import TimedText.Name
import TimedText.Style.FontFamily
import TimedText.Style.Form
/-!
The style attributes that are known, in the order in which their values are
computed: a font size comes before the line height that depends on it.
-/

namespace TimedText.Style

inductive Rule where
  /-- The specified value, or else the initial one. -/
  | uninherited
  /-- The specified value, or else the parent's, or else the initial one. -/
  | inherited
  /-- A percentage of the parent's font size, or of the height of a cell. -/
  | fontSize
  /-- A percentage of the font size of the same element, or `normal`. -/
  | lineHeight
deriving DecidableEq, Repr

def Rule.name : Rule → String
  | .uninherited => "Uninherited"
  | .inherited => "Inherited"
  | .fontSize => "FontSize"
  | .lineHeight => "LineHeight"

/-- The namespace of an attribute: one next to that of the document, which
differs from it by what follows, or a fixed one. -/
inductive Family where
  | beside (following : String)
  | fixed (uri : String)
deriving DecidableEq, Repr

structure Property where
  family : Family
  name : String
  /-- The local parts of the tags to which the attribute applies. -/
  kinds : List String
  /-- Whether a specified value is well-formed. -/
  accepts : String → Bool
  initial : String
  rule : Rule

namespace Property

def qualifiedName (uri : String) (property : Property) : String :=
  match property.family with
  | .beside following => Name.relative uri following property.name
  | .fixed uri => Name.qualified uri property.name

def appliesTo (property : Property) (kind : String) : Bool :=
  property.kinds.contains kind

end Property

def stylingFollowing : String := "#styling"

def referenceName : String := "style"

private def core (name : String) (kinds : List String) (accepts : String → Bool)
    (initial : String) (rule : Rule) : Property :=
  ⟨.beside stylingFollowing, name, kinds, accepts, initial, rule⟩

def properties : List Property := [
  core "direction" ["p", "span"] (isOneOf ["ltr", "rtl"]) "ltr" .inherited,
  core "fontFamily" ["span"] areFamilies "default" .inherited,
  core "fontSize" ["span"] isPercentage "100%" .fontSize,
  core "lineHeight" ["p"] (fun text => text == "normal" || isPercentage text)
    "normal" .lineHeight,
  core "textAlign" ["p"]
    (isOneOf ["left", "center", "right", "start", "end", "justify"])
    "start" .inherited,
  core "color" ["span"] isColour "#ffffffff" .inherited,
  core "backgroundColor" ["region", "body", "div", "p", "span"] isColour
    "#00000000" .uninherited,
  core "fontStyle" ["span"] (isOneOf ["normal", "italic"]) "normal" .inherited,
  core "fontWeight" ["span"] (isOneOf ["normal", "bold"]) "normal" .inherited,
  core "textDecoration" ["span"] (isOneOf ["none", "underline"]) "none" .inherited,
  core "unicodeBidi" ["p", "span"] (isOneOf ["normal", "embed", "bidiOverride"])
    "normal" .inherited,
  core "wrapOption" ["span"] (isOneOf ["wrap", "noWrap"]) "wrap" .inherited,
  ⟨.fixed Vocabulary.broadcastStyling, "multiRowAlign", ["p"],
    isOneOf ["auto", "start", "center", "end"], "auto", .inherited⟩,
  ⟨.fixed Vocabulary.broadcastStyling, "linePadding", ["p"], isCellLength, "0c",
    .inherited⟩,
  ⟨.fixed Vocabulary.internetStyling, "fillLineGap", ["p"],
    isOneOf ["false", "true"], "false", .inherited⟩,
  core "origin" ["region"] isPair "0% 0%" .uninherited,
  core "extent" ["region"] isPair "100% 100%" .uninherited,
  core "displayAlign" ["region"] (isOneOf ["before", "center", "after"]) "before"
    .uninherited,
  core "padding" ["region"] isPadding "0%" .uninherited,
  core "writingMode" ["region"]
    (isOneOf ["lrtb", "rltb", "tbrl", "tblr", "lr", "rl", "tb"]) "lrtb"
    .uninherited,
  core "showBackground" ["region"] (isOneOf ["always", "whenActive"]) "always"
    .uninherited,
  core "overflow" ["region"] (isOneOf ["visible", "hidden"]) "hidden" .uninherited,
  ⟨.fixed "", referenceName, ["style", "region", "body", "div", "p", "span"],
    areReferences, "", .uninherited⟩]

def propertyNamed? (name : String) : Option Property :=
  properties.find? fun property => property.name == name

def propertyQualified? (uri name : String) : Option Property :=
  properties.find? fun property => property.qualifiedName uri == name

def propertiesFor (kinds : List String) : List Property :=
  properties.filter fun property => kinds.any property.appliesTo

def namesFor (uri : String) (kinds : List String) : List String :=
  (propertiesFor kinds).map (·.qualifiedName uri)

/-- Whether an attribute with a local name applies to elements of a kind.
Attributes that are not known apply to all. -/
def isApplicable (name kind : String) : Bool :=
  match properties.filter fun property => property.name == name with
  | [] => true
  | known => known.any fun property => property.appliesTo kind

end TimedText.Style
