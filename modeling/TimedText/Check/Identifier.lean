import TimedText.Check.Context
/-!
Checks of identifiers: each identifies one element, and references lead to
elements of the kind that they are meant for.
-/

namespace TimedText.Check

def fileId (ids : Catalogue (List String)) (element : Element) :
    Catalogue (List String) :=
  match element.xmlId? with
  | none => ids
  | some id => ids.insert id ((ids.find? id).getD [] ++ [element.tag])

def gatherIds (root : Element) : Catalogue (List String) :=
  root.walk.foldl fileId .empty

def checkUnique (ids : Catalogue (List String)) : Verdict :=
  let repeated := ids.entries.filter fun (_, tags) => 1 < tags.length
  if repeated.isEmpty then
    .remark (.pass .xmlIdUnique "Parsed document" "xml:id values are unique")
  else
    Verdict.forEach repeated fun (id, tags) =>
      .against (.fail .xmlIdUnique (", ".intercalate tags)
        s!"Duplicate xml:id found with value {id}")

def checkIds (root : Element) : Run Bool := do
  let ids := gatherIds root
  Run.change fun context => { context with ids := some ids }
  Run.judge (checkUnique ids)

def checkUnqualifiedIds (root : Element) : Verdict :=
  let found := root.descendants.filter (·.hasAttribute "id")
  let without := found.filter (·.xmlId?.isNone)
  .when (!found.isEmpty)
    (.remark (.warn .xmlIdUnqualified "Parsed document"
      (s!"{found.length} elements have unqualified id attributes, "
        ++ s!"of which {without.length} have no xml:id attribute. "
        ++ "Check if they should have xml:id attributes!")))

def checkHasId (element : Element) : Verdict :=
  .when element.xmlId?.isNone
    (.against (.fail .ebuttdPXmlIdConstraint s!"{element.localPart} xml:id omitted"
      "Element missing required xml:id attribute"))

/-! ## References -/

/-- An attribute that refers to elements: its name, the word for it, the local
part of the tags that it may refer to, and whether it refers to one only. -/
structure ReferenceKind where
  name : String
  display : String
  target : String
  single : Bool

def referenceKinds : List ReferenceKind := [
  ⟨"style", "style", "style", false⟩,
  ⟨"region", "region", "region", true⟩,
  ⟨Name.qualified Vocabulary.metadata "agent", "ttm:agent", "agent", false⟩]

def targetsOf (root : Element) : Catalogue String :=
  root.walk.foldl
    (fun targets element =>
      match element.xmlId? with
      | some id =>
        if targets.contains id then targets else targets.insert id element.localPart
      | none => targets)
    .empty

def checkTarget (targets : Catalogue String) (kind : ReferenceKind)
    (location reference : String) : Verdict :=
  match targets.find? reference with
  | none => .silent
  | some target =>
    .when (target != kind.target)
      (.against (.fail .ttmlIdrefElementApplicability location
        (s!"{kind.display} attribute value {reference} references "
          ++ s!"a {target} element, expected {kind.target}")))

def checkReferences (targets : Catalogue String) (element : Element)
    (kind : ReferenceKind) : Verdict :=
  match element.attribute? kind.name with
  | none => .silent
  | some value =>
    let location := localLocation element
    let references := Text.words value
    if references.isEmpty then
      .against (.fail .ttmlIdrefEmpty location s!"{kind.display} attribute is empty")
    else
      Verdict.when (kind.single && 1 < references.length)
          (.against (.fail .ttmlIdrefTooMany location
            (s!"{kind.display} attribute value {value} contains "
              ++ s!"{references.length} IDREFs, expected 1")))
        ++ Verdict.forEach references (checkTarget targets kind location)

def checkAllReferences (root : Element) : Verdict :=
  let targets := targetsOf root
  Verdict.affirm
    (Verdict.forEach root.walk fun element =>
      Verdict.forEach referenceKinds (checkReferences targets element))
    (.pass .ttmlIdrefElementApplicability "Parsed document"
      "IDREF attributes checked")

end TimedText.Check
