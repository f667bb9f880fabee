import TimedText.Vocabulary
/-!
Qualified names. A name is written as its namespace in braces and then its
local part, or as the local part alone where no namespace applies, so that two
names are equal whatever abbreviations a document uses.
-/

namespace TimedText.Name

/-- The name of a local part in a namespace; the empty namespace is none. -/
def qualified (uri part : String) : String :=
  if uri.isEmpty then part else "\x7b" ++ uri ++ "\x7d" ++ part

/-- The name of a local part in a namespace next to another one, which differs
from it by what follows, such as `#styling`. -/
def relative (uri following part : String) : String :=
  "\x7b" ++ uri ++ following ++ "\x7d" ++ part

/-- The namespace and the local part of a written name, if it has the first
one: what stands before and after the first closing brace. -/
def parts? (name : String) : Option (String × String) :=
  match name.toList with
  | '\x7b' :: rest =>
    match rest.span (· != '\x7d') with
    | (uri, _ :: part) => some (String.ofList uri, String.ofList part)
    | (_, []) => none
  | _ => none

def localPart (name : String) : String :=
  match parts? name with
  | some (_, part) => part
  | none => name

def uri? (name : String) : Option String :=
  (parts? name).map Prod.fst

def xmlId : String :=
  qualified Vocabulary.xml "id"

end TimedText.Name
