import TimedText.Markup.Prolog
import TimedText.Markup.Tree
/-!
Documents: a text read into its prolog and its root element, or the first thing
that is wrong with it and where. Lines are counted from one and columns, in
characters, from zero.
-/

namespace TimedText.Markup

structure SyntaxError where
  flaw : Flaw
  line : Nat
  column : Nat
deriving DecidableEq, Repr

namespace SyntaxError

def message (error : SyntaxError) : String :=
  s!"{error.flaw.message}: line {error.line}, column {error.column}"

/-- The characters that end within a number of bytes. -/
def before (bytes : Nat) : List Char → List Char
  | [] => []
  | character :: rest =>
    if character.utf8Size ≤ bytes then
      character :: before (bytes - character.utf8Size) rest
    else []

def lineAndColumn (text : List Char) : Nat × Nat :=
  text.foldl
    (fun (line, column) character =>
      if character == '\n' then (line + 1, 0) else (line, column + 1))
    (1, 0)

def after (text : List Char) (bytes : Nat) (flaw : Flaw) : SyntaxError :=
  let (line, column) := lineAndColumn (before bytes text)
  ⟨flaw, line, column⟩

/-- A failure to read a text. Its place is counted from after a byte order
mark. -/
def ofFailure (text : List Char) (failure : Failure) : SyntaxError :=
  after text
    (Text.byteLength (withoutMark text) - Text.byteLength failure.rest)
    failure.flaw

def atEnd (text : List Char) (flaw : Flaw) : SyntaxError :=
  after text (Text.byteLength text) flaw

end SyntaxError

structure Document where
  root : Element
  prolog : Prolog

def Document.read (text : String) : Except SyntaxError Document :=
  let characters := text.toList
  let transcript := transcribe characters
  match Construction.empty.afterEvents transcript.events with
  | .error failure => .error (.ofFailure characters failure)
  | .ok construction =>
    match transcript.failure, construction.frames, construction.root with
    | some failure, _, _ => .error (.ofFailure characters failure)
    | none, _ :: _, _ => .error (.atEnd characters .unclosedElement)
    | none, [], none => .error (.atEnd characters .noRoot)
    | none, [], some root =>
      .ok ⟨root, .ofEvents (transcript.events.map Prod.fst)⟩

end TimedText.Markup
