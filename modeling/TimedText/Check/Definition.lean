import TimedText.Check.Context
/-!
Checks of the definitions in the head of a document: the styles in `styling` and
the regions in `layout`. Either container has to be there once, and holds
elements that content refers to by id.
-/

namespace TimedText.Check

/-- A kind of definition: the local parts of the tags of its container and its
items, the word for an item at the start of a sentence, the kinds of elements
whose style attributes give an item meaning, and the codes of findings. -/
structure DefinitionKind where
  container : String
  item : String
  title : String
  styled : List String
  containerCode : Code
  countCode : Code
  itemCode : Code
  absenceCode : Code

def styleKind : DefinitionKind where
  container := "styling"
  item := "style"
  title := "Style"
  styled := ["body", "div", "p", "span"]
  containerCode := .ebuttdStylingElementConstraint
  countCode := .ttmlElementStyling
  itemCode := .ttmlElementStyle
  absenceCode := .ebuttdStyleElementConstraint

def regionKind : DefinitionKind where
  container := "layout"
  item := "region"
  title := "Region"
  styled := ["region"]
  containerCode := .ebuttdLayoutElementConstraint
  countCode := .ttmlElementLayout
  itemCode := .ttmlElementRegion
  absenceCode := .ebuttdRegionElementConstraint

def checkStyleValues (uri : String) (element : Element) : Verdict :=
  Verdict.forEach Style.properties fun property =>
    let name := property.qualifiedName uri
    match element.attribute? name with
    | none => .silent
    | some value =>
      .when (!property.accepts value)
        (.against (.fail .ttmlAttributeStylingAttribute (localLocation element)
          s!"Style attribute {name} value {value} has invalid format"))

def checkItem (kind : DefinitionKind) (uri : String) (item : Element) : Verdict :=
  let recognised := Style.namesFor uri kind.styled
  Verdict.when item.xmlId?.isNone
      (.against (.fail kind.itemCode s!"{item.tag}@{Name.xmlId}"
        s!"{kind.item} element found with no xml:id"))
    ++ Verdict.when (!recognised.any item.hasAttribute)
      (.remark (.warn kind.itemCode (item.tag ++ " " ++ item.xmlIdOr "(no xml:id)")
        s!"{kind.title} element has no recognised style attributes"))
    ++ checkStyleValues uri item

def definitionsOf (items : List Element) : Catalogue Element :=
  .ofList (items.filterMap fun item => item.xmlId?.map fun id => (id, item))

def checkContainer (kind : DefinitionKind) (uri : String) (container : Element) :
    Verdict × Catalogue Element :=
  let tag := Name.qualified uri kind.item
  let items := container.childrenNamed tag
  let location := childLocation container tag
  let definitions := definitionsOf items
  let verdict :=
    Verdict.forEach items (checkItem kind uri)
      ++ Verdict.when definitions.isEmpty
        (.against (.fail kind.absenceCode location
          s!"At least one {kind.item} element required, none found"))
  (verdict.affirm
    (.pass kind.countCode s!"[{location}]" s!"{kind.title} elements checked"),
    definitions)

/-- The verdict on the definitions of a kind in a head, and these, unless there
is not exactly one container. -/
def checkDefinitions (kind : DefinitionKind) (uri : String) (head : Element) :
    Verdict × Option (Catalogue Element) :=
  let tag := Name.qualified uri kind.container
  let location := childLocation head tag
  let skipped : Verdict :=
    .against (.skip kind.itemCode location s!"Skipping {kind.item} element checks")
  match head.childrenNamed tag with
  | [container] =>
    let (verdict, definitions) := checkContainer kind uri container
    (Verdict.remark
        (.pass kind.containerCode location s!"{kind.container} element found")
      ++ verdict, some definitions)
  | [] =>
    (Verdict.against
        (.fail kind.containerCode location
          s!"Required {kind.container} element absent")
      ++ skipped, none)
  | containers =>
    (Verdict.against
        (.fail kind.countCode location
          s!"{containers.length} {kind.container} elements found, expected 1")
      ++ skipped, none)

def fileStyles (head : Element) : Run Bool := do
  let context ← Run.context
  let (verdict, styles) := checkDefinitions styleKind context.uri head
  Run.change fun context => { context with styles := styles.or context.styles }
  Run.judge verdict

def fileRegions (head : Element) : Run Bool := do
  let context ← Run.context
  let (verdict, regions) := checkDefinitions regionKind context.uri head
  Run.change fun context => { context with regions := regions.or context.regions }
  Run.judge verdict

end TimedText.Check
