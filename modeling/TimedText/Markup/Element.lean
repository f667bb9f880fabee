import TimedText.Name
import TimedText.Text.Blank
/-!
Elements of a document, the walks over them and the ways to reach one. All
names are qualified. Character data stands next to the element that it follows:
an element has the text before its first child and the tail after its own end.
-/

namespace TimedText

structure Element where
  tag : String
  attributes : List (String × String)
  children : List Element
  text : Option String
  tail : Option String
deriving Inhabited

/-- The places of an element and of those it lies in, from the root down: at
each step the place among all children. -/
abbrev Path := List Nat

namespace Element

def bare (tag : String) : Element := ⟨tag, [], [], none, none⟩

/-! ## Names and attributes -/

def localPart (element : Element) : String :=
  Name.localPart element.tag

def uri? (element : Element) : Option String :=
  Name.uri? element.tag

def attribute? (element : Element) (name : String) : Option String :=
  (element.attributes.find? fun pair => pair.1 == name).map Prod.snd

def hasAttribute (element : Element) (name : String) : Bool :=
  element.attributes.any fun pair => pair.1 == name

def attributeNames (element : Element) : List String :=
  element.attributes.map Prod.fst

/-- Changes the first pair with a name, or adds one at the end. -/
def setPair (name value : String) :
    List (String × String) → List (String × String)
  | [] => [(name, value)]
  | pair :: rest =>
    if pair.1 == name then (name, value) :: rest
    else pair :: setPair name value rest

def setAttribute (element : Element) (name value : String) : Element :=
  { element with attributes := setPair name value element.attributes }

def isXmlId (name : String) : Bool :=
  Name.uri? name == some Vocabulary.xml && Name.localPart name == "id"

def xmlId? (element : Element) : Option String :=
  (element.attributes.find? fun pair => isXmlId pair.1).map Prod.snd

def xmlIdOr (placeholder : String) (element : Element) : String :=
  element.xmlId?.getD placeholder

/-! ## Children -/

def childrenNamed (element : Element) (tag : String) : List Element :=
  element.children.filter fun child => child.tag == tag

def childrenLocal (element : Element) (part : String) : List Element :=
  element.children.filter fun child => child.localPart == part

def child? (element : Element) (tag : String) : Option Element :=
  element.children.find? fun child => child.tag == tag

def addChild (element child : Element) : Element :=
  { element with children := element.children ++ [child] }

/-- The elements that lie under an element along a path of tags. -/
def reached (element : Element) (tags : List String) : List Element :=
  tags.foldl (fun elements tag => elements.flatMap (·.childrenNamed tag))
    [element]

def at? (element : Element) : Path → Option Element
  | [] => some element
  | index :: rest => element.children[index]?.bind fun child => child.at? rest

def placedChildren (path : Path) (element : Element) : List (Path × Element) :=
  element.children.zipIdx.map fun (child, index) => (path ++ [index], child)

/-! ## Walks -/

mutual
def size : Element → Nat
  | ⟨_, _, children, _, _⟩ => sizeOfAll children + 1

def sizeOfAll : List Element → Nat
  | [] => 0
  | first :: rest => first.size + sizeOfAll rest
end

theorem size_eq (element : Element) :
    element.size = sizeOfAll element.children + 1 := by
  cases element
  rw [size]

theorem sizeOfAll_append (left right : List Element) :
    sizeOfAll (left ++ right) = sizeOfAll left + sizeOfAll right := by
  induction left with
  | nil => simp [sizeOfAll]
  | cons first rest induction => simp [sizeOfAll, induction, Nat.add_assoc]

/-- All elements of the trees in a list: each element, then what it contains,
then what follows it. -/
def walkAll : List Element → List Element
  | [] => []
  | element :: rest => element :: walkAll (element.children ++ rest)
termination_by pending => sizeOfAll pending
decreasing_by
  rw [sizeOfAll_append, sizeOfAll, size_eq]
  omega

def walk (element : Element) : List Element :=
  walkAll [element]

theorem map_placedChildren (path : Path) (element : Element) :
    (element.placedChildren path).map Prod.snd = element.children := by
  rw [placedChildren, List.map_map]
  exact List.zipIdx_map_fst 0 element.children

def walkPlacedAll : List (Path × Element) → List (Path × Element)
  | [] => []
  | (path, element) :: rest =>
    (path, element) :: walkPlacedAll (element.placedChildren path ++ rest)
termination_by pending => sizeOfAll (pending.map Prod.snd)
decreasing_by
  rw [List.map_append, map_placedChildren, sizeOfAll_append, List.map_cons,
    sizeOfAll, size_eq]
  dsimp only
  omega

def walkPlaced (element : Element) : List (Path × Element) :=
  walkPlacedAll [([], element)]

def descendants (element : Element) : List Element :=
  walkAll element.children

def descendantsNamed (element : Element) (tag : String) : List Element :=
  element.descendants.filter fun inner => inner.tag == tag

/-! ## Character data -/

mutual
def textContent : Element → String
  | ⟨_, _, children, text, _⟩ => text.getD "" ++ textContentAll children

def textContentAll : List Element → String
  | [] => ""
  | first :: rest =>
    first.textContent ++ first.tail.getD "" ++ textContentAll rest
end

end Element

end TimedText
