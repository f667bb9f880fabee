import TimedText.Markup.Document
import TimedText.Proofs.Markup.Grammar
/-!
Texts with their prefixes renamed. A prefix stands before the first colon in the name of an
element or an attribute, and after it in a declaration. All else stays as it is.
-/

namespace TimedText.Markup

/-! ## Names -/

def renamedName (rename : String → String) (written : List Char) : List Char :=
  match prefixAndPart? written with
  | some (before, part) => (rename before).toList ++ ':' :: part.toList
  | none => written

def declaring : String := "xmlns"

/-- The prefix in the key of an attribute, which a declaration has after its colon. -/
def keyPrefix? (key : List Char) : Option String :=
  (prefixAndPart? key).map fun (before, part) => if before = declaring then part else before

def renamedKey (rename : String → String) (key : List Char) : List Char :=
  match prefixAndPart? key with
  | some (before, part) =>
    if before = declaring then before.toList ++ ':' :: (rename part).toList
    else (rename before).toList ++ ':' :: part.toList
  | none => key

example : renamedKey (fun _ => "b") "xmlns:a".toList = "xmlns:b".toList := by decide +kernel

/-! ## Tags -/

def afterValue (assigned : List Char) : List Char :=
  match afterEquals (fun _ => 0) assigned with
  | .ok valued =>
    match takeValue (fun _ => 0) valued with
    | .ok (_, rest) => rest
    | .error _ => []
  | .error _ => []

def changeKeys (change : List Char → List Char) : List Attribute → List Char → List Char
  | [], characters => characters
  | ⟨key, _⟩ :: others, characters =>
    let blanks := characters.takeWhile isSpace
    let assigned := (characters.drop blanks.length).drop key.length
    let rest := afterValue assigned
    blanks ++ (change key
      ++ (assigned.take (assigned.length - rest.length) ++ changeKeys change others rest))

def renamedTag (rename : String → String) (tag : List Char) : List Char :=
  renamedName rename (tagName tag)
    ++ changeKeys (renamedKey rename) (attributesOf true tag).read (afterName tag)

def tagPrefixes (tag : List Char) : List String :=
  ((prefixAndPart? (tagName tag)).map Prod.fst).toList
    ++ (attributesOf true tag).read.filterMap fun pair => keyPrefix? pair.key

/-! ## Texts -/

def Event.prefixes : Event → List String
  | .start tag | .empty tag => tagPrefixes tag
  | _ => []

def prefixesOf (text : String) : List String :=
  ((transcribe text.toList).events.map Prod.fst).flatMap Event.prefixes

def renamedMarkup (rename : String → String) (written : List Char) : Event → List Char
  | .start tag => '<' :: (renamedTag rename tag ++ ['>'])
  | .empty tag => '<' :: (renamedTag rename tag ++ ['/', '>'])
  | .finish => '<' :: '/' :: renamedName rename (written.drop 2)
  | _ => written

def renamedFrom (rename : String → String) (opened : List (List Char))
    (characters : List Char) : List Char :=
  match read opened characters with
  | .done => []
  | .failure _ => characters
  | .event event rest _ =>
    renamedMarkup rename (characters.take (characters.length - rest.length)) event
      ++ renamedFrom rename (openedAfter opened event) rest
termination_by characters.length

def renamed (rename : String → String) (text : String) : String :=
  let marked := withoutMark text.toList
  String.ofList (text.toList.take (text.toList.length - marked.length)
    ++ renamedFrom rename [] marked)

example :
    renamed (fun before => if before = "a" then "b" else before)
        "<a:p xmlns:a = 'u' a:x=\"a:1\" ><!--a:--><a:q/>a:</a:p >"
      = "<b:p xmlns:b = 'u' b:x=\"a:1\" ><!--a:--><b:q/>a:</b:p >" := by
  decide +kernel

/-! ## Renamed markup -/

def Attribute.changed (change : List Char → List Char) (pair : Attribute) : Attribute :=
  { pair with key := change pair.key }

/-- A tag has the name and the attributes of another, with the prefixes renamed. -/
structure TagRenamed (rename : String → String) (tag other : List Char) : Prop where
  name : tagName other = renamedName rename (tagName tag)
  attributes :
    Spells ((attributesOf true tag).read.map (.changed (renamedKey rename))) (afterName other)

inductive EventRenamed (rename : String → String) : Event → Event → Prop
  | start {tag other : List Char} (renames : TagRenamed rename tag other) :
      EventRenamed rename (.start tag) (.start other)
  | empty {tag other : List Char} (renames : TagRenamed rename tag other) :
      EventRenamed rename (.empty tag) (.empty other)
  | other {event : Event} (untagged : ∀ tag, event ≠ .start tag ∧ event ≠ .empty tag) :
      EventRenamed rename event event

/-- The markup of a text is that of another with the prefixes renamed. -/
structure IsRenamed (rename : String → String) (text other : String) : Prop where
  whole : (transcribe other.toList).failure = none
  events :
    List.Forall₂ (EventRenamed rename) ((transcribe text.toList).events.map Prod.fst)
      ((transcribe other.toList).events.map Prod.fst)

/-! ## Renamings -/

/-- The prefixes with a meaning of their own. -/
def reservedPrefixes : List String := ["", "xml", declaring]

/-- Some prefixes are renamed: no two of them alike, and none to or from one with a meaning
of its own. -/
structure IsRenaming (rename : String → String) (prefixes : List String) : Prop where
  kept : ∀ before ∈ reservedPrefixes, rename before = before
  apart : ∀ before ∈ prefixes, rename before ∈ reservedPrefixes → before ∈ reservedPrefixes
  injective : ∀ first ∈ prefixes, ∀ second ∈ prefixes, rename first = rename second →
    first = second
  /-- A prefix ends before the first colon. -/
  colonless : ∀ before ∈ prefixes, ':' ∉ before.toList → ':' ∉ (rename before).toList

/-- The characters that separate or enclose in markup. No name holds one of them. -/
def isMarkup (character : Char) : Bool :=
  isSpace character || isQuote character || "=:<>&/!?".toList.contains character

def IsPrefix (before : String) : Prop :=
  before ≠ "" ∧ ∀ character ∈ before.toList, isMarkup character = false

/-- Where a prefix is renamed, it may be written over: it holds no quotation marks, which
would be missed where they close others. -/
def IsWritten (rename : String → String) (prefixes : List String) : Prop :=
  ∀ before ∈ prefixes, rename before ≠ before →
    (∀ character ∈ before.toList, isQuote character = false) ∧ IsPrefix (rename before)

end TimedText.Markup
