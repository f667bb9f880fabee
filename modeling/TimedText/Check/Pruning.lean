import TimedText.Check.Context
import TimedText.Check.RegionReference
/-!
The pruning of foreign vocabulary. A script may hold elements and attributes of
any namespace, and whoever processes it ignores what is not recognised. Pruning
makes the document that is left, in which the text after a removed element
keeps its place.
-/

namespace TimedText.Check

def recognisedUris : List String := [
  Vocabulary.xml, Vocabulary.core, Vocabulary.parameter, Vocabulary.audio,
  Vocabulary.metadata, Vocabulary.feature, Vocabulary.scriptMetadata,
  Vocabulary.scriptExtension, Vocabulary.broadcastMetadata]

def recognisedNames : List String := [
  "agent", "animate", "begin", "calcMode", "clipBegin", "clipEnd", "condition",
  "dur", "encoding", "end", "family", "fill", "format", "keySplines", "keyTimes",
  "length", "name", "range", "region", "repeatCount", "src", "style",
  "timeContainer", "type", "weight"]

def isRecognisedElement (tag : String) : Bool :=
  (Name.uri? tag).any recognisedUris.contains

def isRecognisedAttribute (name : String) : Bool :=
  match Name.uri? name with
  | some uri => recognisedUris.contains uri
  | none => recognisedNames.contains name

inductive Removal where
  | element (tag : String)
  | pair (name : String)
deriving DecidableEq, Repr

def joinTexts : Option String → Option String → Option String
  | first, none => first
  | none, second => second
  | some first, some second => some (first ++ second)

/-- What is left of a list of elements: the text that has come to stand before
the first of them, the elements, and what was taken out. -/
structure Remainder where
  leading : Option String
  kept : List Element
  removals : List Removal

mutual
def prune : Element → Element × List Removal
  | ⟨tag, attributes, children, text, tail⟩ =>
    let foreign := attributes.filter fun pair => !isRecognisedAttribute pair.1
    let own := attributes.filter fun pair => isRecognisedAttribute pair.1
    let inner := pruneAll children
    (⟨tag, own, inner.kept, joinTexts text inner.leading, tail⟩,
      foreign.map (fun pair => .pair pair.1) ++ inner.removals)

def pruneAll : List Element → Remainder
  | [] => ⟨none, [], []⟩
  | first :: rest =>
    let following := pruneAll rest
    if isRecognisedElement first.tag then
      let (kept, removals) := prune first
      ⟨none,
        { kept with tail := joinTexts kept.tail following.leading } :: following.kept,
        removals ++ following.removals⟩
    else
      ⟨joinTexts first.tail following.leading, following.kept,
        .element first.tag :: following.removals⟩
end

/-! ## Report -/

def Removal.uri : Removal → String
  | .element tag => (Name.uri? tag).getD ""
  | .pair name => (Name.uri? name).getD ""

def Removal.elementPart? : Removal → Option String
  | .element tag => some (Name.localPart tag)
  | .pair _ => none

def Removal.attributePart? : Removal → Option String
  | .element _ => none
  | .pair name => some (Name.localPart name)

def describeCounts (counts : Catalogue Nat) : String :=
  let describe (name : String) (count : Nat) : String :=
    let ending := if count = 1 then "" else "s"
    s!"\"{name}\" {count} time{ending}"
  if counts.isEmpty then ""
  else
    "(" ++ ", ".intercalate (counts.entries.map fun (name, count) => describe name count)
      ++ ") "

def pruningMessage (uri : String) (removals : List Removal) : String :=
  let elements := tally (removals.filterMap Removal.elementPart?)
  let pairs := tally (removals.filterMap Removal.attributePart?)
  s!"Pruned {elements.size} elements {describeCounts elements}"
    ++ s!"and {pairs.size} attributes {describeCounts pairs}"
    ++ s!"in namespace \"{uri}\""

def pruningFindings (removals : List Removal) : Log :=
  (removals.map Removal.uri).eraseDups.map fun uri =>
    .info .xmlPrune "Document"
      (pruningMessage uri (removals.filter fun removal => removal.uri == uri))

def checkVocabulary (root : Element) : Run Bool := do
  let (pruned, removals) := prune root
  if !removals.isEmpty then
    Run.change fun context => { context with replacement := some pruned }
  Run.note (pruningFindings removals)
  return true

end TimedText.Check
