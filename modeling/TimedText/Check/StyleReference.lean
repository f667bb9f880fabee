import TimedText.Check.Context
/-!
Checks of style references and of the styles computed for content. References
lead to style elements. Paragraphs and spans are shown in sizes, colours and
spacing that the player can show well; for upright video the sizes are halved.
-/

namespace TimedText.Check

open Style

/-! ## References -/

def danglingReferences (styles : Catalogue Element) (element : Element) : Log :=
  ((references element).filter fun id => !styles.contains id).map fun id =>
    .warn .ttmlStylingReference (localLocation element)
      s!"Referenced id {id} does not point to a style element"

def strayReferences (styles : Catalogue Element) (root : Element) : Log :=
  let referenced := root.walk.flatMap references
  let unused := styles.keys.filter fun id => !referenced.contains id
  root.walk.flatMap (danglingReferences styles) ++ unused.map fun id =>
    .warn .ttmlElementStyle s!"style xml:id={id}" "Unreferenced style element"

/-! ## Measures -/

structure Range where
  lowest : Float
  highest : Float

namespace Range

def contains (range : Range) (size : Float) : Bool :=
  Number.lessOrEqual range.lowest size && Number.lessOrEqual size range.highest

/-- The font sizes that can be read, in percent of the height. -/
def fontSizes (vertical : Bool) : Range :=
  if vertical then ⟨3, 4.5⟩ else ⟨6, 7.5⟩

def lineHeights (range : Range) : Range :=
  ⟨range.lowest * 1.2, range.highest * 1.2⟩

def linePaddings : Range := ⟨0.3, 0.8⟩

end Range

def beforeUnit? (unit text : String) : Option String :=
  if unit.toList.isSuffixOf text.toList then
    some (String.ofList (text.toList.take (text.length - unit.length)))
  else none

def measure (unit name value : String) : Except Fault Float :=
  match (beforeUnit? unit value).bind Number.read? with
  | some number => .ok number
  | none => .error (.style s!"Non-canonical computed {name} {value}")

/-! ## Blocks -/

def checkBlockBackground (uri : String) (specified : Specified)
    (element : Element) : Verdict :=
  let name := Name.relative uri stylingFollowing "backgroundColor"
  match specified.find? name with
  | none => .silent
  | some value =>
    let location := s!"{element.tag} element {name} attribute"
    match Colour.read? value with
    | none =>
      .against (.fail .ttmlAttributeStylingAttribute location
        s!"backgroundColor attribute {value} is not valid")
    | some colour =>
      .when (!colour.isTransparent)
        (.against (.fail .bbcBlockBackgroundColorConstraint location
          s!"backgroundColor {value} is not transparent (BBC requirement)"))

/-! ## Text -/

def requiredFamilies : String :=
  "ReithSans, Arial, Roboto, proportionalSansSerif, default"

def forValue (computed : Computed) (name : String) (rule : String → Attempt Bool) :
    Attempt Bool :=
  match computed.find? name with
  | some value => rule value
  | none => pure true

def checkFamilies (location value : String) : Verdict :=
  .when (families value != families requiredFamilies)
    (.against (.fail .bbcTextFontFamilyConstraint location
      s!"Computed fontFamily {value} differs from BBC requirement"))

def checkFontSize (range : Range) (location : String) (size : Float) : Verdict :=
  let shown := Number.fixedText 3 size
  if range.contains size then
    .remark (.pass .bbcTextFontSizeConstraint location
      s!"Computed fontSize {shown}rh (within BBC-allowed range)")
  else
    .against (.fail .bbcTextFontSizeConstraint location
      (s!"Computed fontSize {shown}rh outside BBC-allowed range "
        ++ s!"{Number.plainText range.lowest}rh-{Number.plainText range.highest}rh"))

def checkFont (sizes : Range) (location : String) (computed : Computed) :
    Attempt Bool := do
  let family ← forValue computed "fontFamily" fun value =>
    Attempt.judge (checkFamilies location value)
  let size ← forValue computed "fontSize" fun value => do
    let size ← Attempt.ofExcept (measure "rh" "fontSize" value)
    Attempt.judge (checkFontSize sizes location size)
  return family && size

/-! ## Paragraphs -/

def checkLineHeight (range : Range) (location : String) (height : Float) : Verdict :=
  .when (!range.contains height)
    (.against (.fail .bbcTextLineHeightConstraint location
      (s!"Computed lineHeight {Number.fixedText 3 height}rh outside "
        ++ s!"BBC-allowed range {Number.fixedText 3 range.lowest}rh-"
        ++ s!"{Number.fixedText 3 range.highest}rh")))

def checkRowAlignment (location : String) (computed : Computed) (value : String) :
    Verdict :=
  let textAlign := (computed.find? "textAlign").getD ""
  if value == "auto" then .silent
  else if value == textAlign then
    .remark (.info .ebuttdMultiRowAlign location
      s!"Computed multiRowAlign set to {value}, matches textAlign")
  else
    .remark (.warn .bbcTextMultiRowAlignConstraint location
      (s!"Computed multiRowAlign set to {value}, differs from "
        ++ s!"textAlign {textAlign} (Not expected in BBC requirements)"))

def checkLinePadding (location value : String) (padding : Float) : Verdict :=
  if Range.linePaddings.contains padding then
    .remark (.pass .bbcTextLinePaddingConstraint location
      s!"Computed linePadding {value} within BBC-allowed range")
  else
    .against (.fail .bbcTextLinePaddingConstraint location
      s!"Computed linePadding {value} outside BBC-allowed range")

def checkLineGap (location value : String) : Verdict :=
  .when (value != "true")
    (.against (.fail .bbcTextFillLineGapConstraint location
      s!"Computed fillLineGap {value} not BBC-allowed value"))

def checkLines (sizes : Range) (location : String) (computed : Computed) :
    Attempt Bool := do
  let height ← forValue computed "lineHeight" fun value =>
    if value == "normal" then
      Attempt.judge (.remark (.warn .bbcTextLineHeightConstraint location
        "lineHeight normal used - SHOULD use explicit percentage"))
    else do
      let height ← Attempt.ofExcept (measure "rh" "lineHeight" value)
      Attempt.judge (checkLineHeight sizes.lineHeights location height)
  let alignment ← forValue computed "multiRowAlign" fun value =>
    Attempt.judge (checkRowAlignment location computed value)
  let padding ← forValue computed "linePadding" fun value => do
    let padding ← Attempt.ofExcept (measure "c" "linePadding" value)
    Attempt.judge (checkLinePadding location value padding)
  let gap ← forValue computed "fillLineGap" fun value =>
    Attempt.judge (checkLineGap location value)
  return height && alignment && padding && gap

/-! ## Spans -/

def textColours : List String := [
  "#ffffff", "#ffffffff", "#00ffff", "#00ffffff", "#ffff00", "#ffff00ff",
  "#00ff00", "#00ff00ff"]

def backgroundColours : List String := ["#000000", "#000000ff"]

def isColourIn (colours : List String) (value : String) : Bool :=
  colours.contains (String.ofList (value.toList.map Char.toLower))

def checkSpanStyle (location : String) (computed : Computed) : Verdict :=
  let rule (name : String) (rule : String → Verdict) : Verdict :=
    (computed.find? name).elim .silent rule
  rule "color" (fun value =>
      .when (!isColourIn textColours value)
        (.against (.fail .bbcTextColorConstraint location
          s!"Computed color {value} not BBC-allowed value")))
    ++ rule "backgroundColor" (fun value =>
      .when (!isColourIn backgroundColours value)
        (.against (.fail .bbcTextBackgroundColorConstraint location
          s!"Computed backgroundColor {value} not BBC-allowed value")))
    ++ rule "fontStyle" (fun value =>
      .when (value != "normal")
        (.remark (.warn .bbcTextFontStyleConstraint location
          s!"Computed fontStyle {value} not in general use for BBC")))

/-! ## Content -/

structure Presentation where
  uri : String
  resolved : Catalogue Specified
  cellResolution : Option String
  sizes : Range

/-- The style of one element: whether it meets the constraints, and the values
computed for its children to inherit. -/
def checkStyleOf (presentation : Presentation) (parent : Computed)
    (element : Element) : Attempt (Bool × Computed) := do
  let kind := element.localPart
  let specified := specifiedFor presentation.uri presentation.resolved element
  let applies ← Attempt.judge
    (.when (kind == "span") (checkApplicability kind specified))
  let background ← Attempt.judge
    (.when (["region", "body", "div", "p"].contains kind)
      (checkBlockBackground presentation.uri specified element))
  let computation := computeAll presentation.uri specified parent
    ⟨presentation.cellResolution, none⟩ .fail
  let computes ← Attempt.judge computation.verdict
  let computed := computation.computed
  let location := localLocation element
  let font ←
    if kind == "p" || kind == "span" then
      checkFont presentation.sizes location computed
    else pure true
  let lines ←
    if kind == "p" then checkLines presentation.sizes location computed
    else pure true
  let span ← Attempt.judge
    (.when (kind == "span") (checkSpanStyle location computed))
  return (applies && background && computes && font && lines && span, computed)

mutual
def checkStylesWithin (presentation : Presentation) (parent : Computed) :
    Element → Attempt Bool
  | ⟨tag, attributes, children, text, tail⟩ => do
    let (own, computed) ← checkStyleOf presentation parent
      ⟨tag, attributes, children, text, tail⟩
    let inner ← checkStylesOfAll presentation computed children
    return own && inner

def checkStylesOfAll (presentation : Presentation) (parent : Computed) :
    List Element → Attempt Bool
  | [] => return true
  | first :: rest => do
    let own ← checkStylesWithin presentation parent first
    let others ← checkStylesOfAll presentation parent rest
    return own && others
end

/-! ## Document -/

def resolveReferences (styles : Option (Catalogue Element)) (root : Element) :
    Attempt (Bool × Catalogue Specified) :=
  match styles with
  | some styles => do
    Attempt.note (strayReferences styles root)
    let resolved := resolveAll styles
    let valid ← Attempt.judge resolved.verdict
    return (valid, resolved.sets)
  | none => do
    Attempt.note [.skip .ttmlStyling "document"
      ("styleRefsCheck not checking for unreferenced style elements - "
        ++ "no context[id_to_style_map]")]
    return (true, .empty)

def checkBodyStyles (presentation : Presentation) (root : Element) :
    Attempt Bool :=
  let tag := Name.qualified presentation.uri "body"
  match root.childrenNamed tag with
  | [body] => checkStylesWithin presentation .empty body
  | bodies =>
    Attempt.judge (.against (.fail .ttmlElementBody (childLocation root tag)
      s!"Found {bodies.length} body elements, expected 1"))

def checkStyleReferences (root : Element) : Run Bool := do
  let context ← Run.context
  let known := context.styles.isSome
  let (resolves, resolved) ← Run.ofAttempt (resolveReferences context.styles root)
  let presentation : Presentation :=
    ⟨context.uri, resolved, context.cellResolution, .fontSizes context.vertical⟩
  let styled ← Run.ofAttempt (checkBodyStyles presentation root)
  if known then
    Run.change fun context => { context with specified := some resolved }
  let valid := resolves && styled && known
  if valid then
    Run.note [.pass .ttmlStyling "document" "Style references and attributes checked"]
  return valid

def checkInlineStyles (uri : String) (root : Element) : Verdict :=
  let names := (properties.map (·.qualifiedName uri)).filter (· != referenceName)
  let content := root.walk.filter fun element =>
    ["body", "div", "p", "span"].contains element.localPart
  let found := Verdict.forEach content fun element =>
    Verdict.forEach (names.filter element.hasAttribute) fun name =>
      .against (.fail .ebuttdInlineStylingConstraint
        (element.tag ++ " xml:id=" ++ element.xmlIdOr "[absent]")
        s!"Inline style attribute {name} not permitted on content element")
  found.affirm
    (.pass .ttmlAttributeStylingAttribute "content elements"
      "Inline style attributes checked")

end TimedText.Check
