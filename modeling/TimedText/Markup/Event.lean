import TimedText.Markup.Attribute
/-!
Markup as a sequence of events. Each event comes with what is left of the text
after it, which is also how places in the text are told: the place of an event
is the place where the rest begins. Reading ends at the first flaw.

The end of a construct is the first place that can be one. A tag may hold a
`>` inside quotes; a document type may hold balanced `<` and `>`.
-/

namespace TimedText.Markup

/-- One piece of markup or of text. Tags hold what stands between their angle
brackets, an empty one without its slash. -/
inductive Event where
  | start (tag : List Char)
  | empty (tag : List Char)
  | finish
  | text (characters : List Char)
  | literal (characters : List Char)
  | reference (name : List Char)
  | declaration (content : List Char)
  | docType (content : List Char)
  | comment
  | instruction
deriving DecidableEq, Repr

/-- A flaw and what is left of the text where it shows. -/
structure Failure where
  flaw : Flaw
  rest : List Char
deriving DecidableEq, Repr

inductive Reading (characters : List Char) where
  | done
  | event (event : Event) (rest : List Char)
      (shorter : rest.length < characters.length)
  | failure (failure : Failure)

/-! ## Closing characters -/

/-- Closes at a `>` outside quotes; the state is the quote that is open. -/
def tagStep : Option Char → Char → Option (Option Char)
  | none, character =>
    if character == '>' then none
    else if character == '"' || character == '\x27' then some (some character)
    else some none
  | some quote, character => some (if character == quote then none else some quote)

/-- Closes at a `>` after certain characters, which are given last first, the
text before it being long enough; the state is that text, last first. -/
def markStep (mark : List Char) (least : Nat) (read : List Char)
    (character : Char) : Option (List Char) :=
  if character == '>' && mark.isPrefixOf read && least ≤ read.length then none
  else some (character :: read)

/-- Closes at the `>` that has no `<` before it; the state counts the open
ones. -/
def balanceStep (depth : Nat) (character : Char) : Option Nat :=
  if character == '<' then some (depth + 1)
  else if character == '>' then
    match depth with
    | 0 => none
    | depth + 1 => some depth
  else some depth

/-! ## Contents -/

def beginsDocType (content : List Char) : Bool :=
  "!DOCTYPE".toList.isPrefixOf ((content.take 8).map Char.toUpper)

def isDeclaration (content : List Char) : Bool :=
  match content with
  | 'x' :: 'm' :: 'l' :: rest => rest.head?.all isSpace
  | _ => false

def startEvent (content : List Char) : Event :=
  if content.getLast? = some '/' then .empty content.dropLast
  else .start content

/-- The name in an end tag: its content without the separators at its end, or
all of it if it holds nothing else. -/
def endName (content : List Char) : List Char :=
  match content.reverse.dropWhile isSpace with
  | [] => content
  | name => name.reverse

def endEvent (opened : List (List Char)) (content : List Char) :
    Except Flaw Event :=
  let found := endName content
  match opened with
  | [] => .error (.unmatchedEnd (String.ofList found))
  | expected :: _ =>
    if expected = found then .ok .finish
    else .error (.mismatchedEnd (String.ofList expected) (String.ofList found))

/-- The event for an instruction with its question marks. A single one cannot
both begin and end it. -/
def instructionEvent (content : List Char) : Except Flaw Event :=
  match content.drop 1 with
  | [] => .error .unclosedInstruction
  | inside =>
    let inside := inside.dropLast
    .ok (if isDeclaration inside then .declaration inside else .instruction)

def docTypeEvent (content : List Char) : Except Flaw Event :=
  match (content.drop 8).dropWhile isSpace with
  | [] => .error .namelessDocType
  | named => .ok (.docType named)

/-! ## Constructs -/

inductive Construct where
  | literal
  | comment
  | docType
  | instruction
  | finish
  | start
deriving DecidableEq, Repr

namespace Construct

def of? : List Char → Option Construct
  | '!' :: '[' :: _ => some .literal
  | '!' :: '-' :: _ => some .comment
  | '!' :: 'D' :: _ | '!' :: 'd' :: _ => some .docType
  | '!' :: _ => none
  | '?' :: _ => some .instruction
  | '/' :: _ => some .finish
  | _ => some .start

def cut? (inside : List Char) : Construct → Option (List Char × List Char)
  | .literal => Text.cut (markStep [']', ']'] 0) [] inside
  | .comment => Text.cut (markStep ['-', '-'] 5) [] inside
  | .docType => Text.cut balanceStep 0 inside
  | .instruction => Text.cut (markStep ['?'] 0) [] inside
  | .finish | .start => Text.cut tagStep none inside

private theorem cut?_shorter {construct : Construct} {inside content rest : List Char}
    (found : construct.cut? inside = some (content, rest)) :
    rest.length < inside.length := by
  cases construct <;> exact Text.cut_shorter found

def unclosed : Construct → Flaw
  | .literal => .unclosedLiteral
  | .comment => .unclosedComment
  | .docType => .unclosedDocType
  | .instruction => .unclosedInstruction
  | .finish | .start => .unclosedTag

/-- The event for what stands inside a construct, the names of the open elements
being given. What ends like a construct without beginning like one counts as
not ended. -/
def event (opened : List (List Char)) (content : List Char) :
    Construct → Except Flaw Event
  | .literal =>
    if "![CDATA[".toList.isPrefixOf content then
      .ok (.literal ((content.drop 8).take (content.length - 10)))
    else .error .unclosedLiteral
  | .comment =>
    if "!--".toList.isPrefixOf content then .ok .comment
    else .error .unclosedComment
  | .docType =>
    if beginsDocType content then docTypeEvent content
    else .error .unclosedDocType
  | .instruction => instructionEvent content
  | .finish => endEvent opened (content.drop 1)
  | .start => .ok (startEvent content)

end Construct

/-! ## Reading -/

/-- Reads what begins with a `<`. A flaw shows there, except that of a nameless
document type, which shows at its end. -/
def readMarkup (opened : List (List Char)) (inside : List Char) :
    Reading ('<' :: inside) :=
  match Construct.of? inside with
  | none => .failure ⟨.unknownMarkup, '<' :: inside⟩
  | some construct =>
    match found : construct.cut? inside with
    | none => .failure ⟨construct.unclosed, '<' :: inside⟩
    | some (content, rest) =>
      match construct.event opened content with
      | .ok event =>
        .event event rest (Nat.lt_succ_of_lt (Construct.cut?_shorter found))
      | .error .namelessDocType => .failure ⟨.namelessDocType, '>' :: rest⟩
      | .error flaw => .failure ⟨flaw, '<' :: inside⟩

def readReference (named : List Char) : Reading ('&' :: named) :=
  let name := named.takeWhile fun character =>
    character != ';' && character != '&' && character != '<'
  match found : named.drop name.length with
  | ';' :: rest =>
    .event (.reference name) rest (by
      have length := congrArg List.length found
      simp only [List.length_drop, List.length_cons] at length ⊢
      omega)
  | _ => .failure ⟨.unclosedReference, '&' :: named⟩

def endsText (character : Char) : Bool :=
  character == '<' || character == '&'

def read (opened : List (List Char)) : (characters : List Char) →
    Reading characters
  | [] => .done
  | '<' :: inside => readMarkup opened inside
  | '&' :: named => readReference named
  | character :: rest =>
    .event
      (.text (character :: rest.takeWhile fun following => !endsText following))
      (rest.dropWhile fun following => !endsText following)
      (Nat.lt_succ_of_le (List.dropWhile_suffix _).length_le)

def openedAfter (opened : List (List Char)) : Event → List (List Char)
  | .start tag => tagName tag :: opened
  | .finish => opened.tail
  | _ => opened

/-- What comes of reading a text: events with what is left after each, and the
failure that ended the reading, if one did. -/
structure Transcript where
  events : List (Event × List Char)
  failure : Option Failure
deriving DecidableEq, Repr

def transcribeFrom (opened : List (List Char)) (characters : List Char) :
    Transcript :=
  match read opened characters with
  | .done => ⟨[], none⟩
  | .failure failure => ⟨[], some failure⟩
  | .event event rest _ =>
    let following := transcribeFrom (openedAfter opened event) rest
    ⟨(event, rest) :: following.events, following.failure⟩
termination_by characters.length

def withoutMark : List Char → List Char
  | '\ufeff' :: rest => rest
  | characters => characters

def transcribe (text : List Char) : Transcript :=
  transcribeFrom [] (withoutMark text)

end TimedText.Markup
