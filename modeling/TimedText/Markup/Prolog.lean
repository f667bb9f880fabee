import TimedText.Markup.Event
import TimedText.Text.Blank
/-!
What stands before the root element: the declaration, the document type and the
names of the entities that it declares. Of several declarations or document
types the last one counts.
-/

namespace TimedText.Markup

structure Declaration where
  version : String
  encoding : Option String
deriving DecidableEq, Repr

structure Prolog where
  declaration : Option Declaration
  docType : Option String
  entities : List String
deriving DecidableEq, Repr

/-- Reads the content of a declaration. The version has to come first; the
encoding may stand anywhere before the first malformed attribute. -/
def Declaration.ofContent (content : List Char) : Declaration where
  version :=
    match (attributesOf false content).read with
    | first :: _ =>
      if first.key = "version".toList then String.ofList first.value else ""
    | [] => ""
  encoding :=
    ((attributesOf false content).read.find? fun pair =>
      pair.key = "encoding".toList).map fun pair => String.ofList pair.value

def isEntityNameCharacter (character : Char) : Bool :=
  !Text.isBlank character && character != '>'

def takeEntityName? (characters : List Char) : Option (List Char × List Char) :=
  match characters.takeWhile isEntityNameCharacter with
  | [] => none
  | name => some (name, characters.dropWhile isEntityNameCharacter)

def afterBlanks? (characters : List Char) : Option (List Char) :=
  if characters.head?.any Text.isBlank then some (characters.dropWhile Text.isBlank)
  else none

/-- The name that an entity declaration gives and what follows it, `named` being
what follows the blanks after the keyword. A percent sign before a name marks a
parameter; before nothing it is the name. -/
def declaredEntity? (named : List Char) : Option (List Char × List Char) :=
  let parameter :=
    match named with
    | '%' :: following => (afterBlanks? following).bind takeEntityName?
    | _ => none
  parameter.or (takeEntityName? named)

private theorem takeEntityName?_bound {characters name rest : List Char}
    (found : takeEntityName? characters = some (name, rest)) :
    rest.length ≤ characters.length := by
  unfold takeEntityName? at found
  split at found
  · cases found
  · cases found
    exact (List.dropWhile_suffix _).length_le

private theorem afterBlanks?_bound {characters rest : List Char}
    (found : afterBlanks? characters = some rest) :
    rest.length ≤ characters.length := by
  unfold afterBlanks? at found
  split at found
  · cases found
    exact (List.dropWhile_suffix _).length_le
  · cases found

private theorem declaredEntity?_bound {named name rest : List Char}
    (found : declaredEntity? named = some (name, rest)) :
    rest.length ≤ named.length := by
  unfold declaredEntity? at found
  rcases Option.or_eq_some_iff.mp found with parameter | ⟨_, plain⟩
  · split at parameter
    · obtain ⟨following, blanks, taken⟩ := Option.bind_eq_some_iff.mp parameter
      exact Nat.le_succ_of_le
        (Nat.le_trans (takeEntityName?_bound taken) (afterBlanks?_bound blanks))
    · cases parameter
  · exact takeEntityName?_bound plain

def afterEntityKeyword? (characters : List Char) : Option (List Char) :=
  if "<!ENTITY".toList.isPrefixOf characters then afterBlanks? (characters.drop 8)
  else none

private theorem afterEntityKeyword?_shorter {character : Char}
    {rest named : List Char}
    (found : afterEntityKeyword? (character :: rest) = some named) :
    named.length ≤ rest.length := by
  unfold afterEntityKeyword? at found
  split at found
  · have bound := afterBlanks?_bound found
    simp only [List.drop_succ_cons, List.length_drop] at bound
    omega
  · cases found

/-- The names of all entities that a document type declares. A name is looked at
once, even if it holds what looks like a declaration. -/
def entityNames (characters : List Char) : List String :=
  match characters with
  | [] => []
  | character :: rest =>
    match _keyword : afterEntityKeyword? (character :: rest) with
    | none => entityNames rest
    | some named =>
      match _declared : declaredEntity? named with
      | none => entityNames rest
      | some (name, following) => String.ofList name :: entityNames following
termination_by characters.length
decreasing_by
  · exact Nat.lt_succ_self _
  · exact Nat.lt_succ_self _
  · have first := afterEntityKeyword?_shorter _keyword
    have second := declaredEntity?_bound _declared
    exact Nat.lt_succ_of_le (Nat.le_trans second first)

namespace Prolog

def empty : Prolog := ⟨none, none, []⟩

def afterEvent (prolog : Prolog) : Event → Prolog
  | .declaration content =>
    { prolog with declaration := some (.ofContent content) }
  | .docType content =>
    { prolog with
      docType := some (String.ofList content)
      entities := entityNames content }
  | _ => prolog

def precedesRoot : Event → Bool
  | .start _ | .empty _ => false
  | _ => true

def ofEvents (events : List Event) : Prolog :=
  (events.takeWhile precedesRoot).foldl afterEvent empty

/-- Reads what stands before the root element of a text, whether or not the
rest of it is well-formed. -/
def scan (text : String) : Prolog :=
  ofEvents ((transcribe text.toList).events.map Prod.fst)

end Prolog

end TimedText.Markup
