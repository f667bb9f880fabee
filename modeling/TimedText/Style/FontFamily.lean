import TimedText.Text.Blank
import TimedText.Text.Digit
/-!
Lists of font families. A family is one or more identifiers with blanks between
them, or text in quotes, where a backslash makes the next character part of it.
Commas stand between families, with blanks around them.

A blank beyond ASCII can be part of an identifier as well as stand between two,
so that reading goes on in several places of the grammar at once.
-/

namespace TimedText.Style

inductive FamilyPlace where
  /-- At the start. -/
  | start
  /-- After a comma. -/
  | next
  /-- After the hyphen before an identifier. -/
  | hyphen
  /-- Inside an identifier. -/
  | identifier
  /-- After blanks that follow an identifier. -/
  | gap
  /-- Inside quotes. -/
  | quoted (quote : Char)
  /-- After a backslash inside quotes. -/
  | escape (quote : Char)
  /-- After a closing quote. -/
  | closed
  /-- After blanks that follow a closing quote. -/
  | ended
deriving DecidableEq, Repr

def beginsIdentifier (character : Char) : Bool :=
  character == '_' || Text.isLetter character || 0xa0 ≤ character.toNat

def continuesIdentifier (character : Char) : Bool :=
  beginsIdentifier character || Text.isDigit character || character == '-'

def FamilyPlace.afterIdentifierStart (character : Char) : List FamilyPlace :=
  (if character == '-' then [.hyphen] else [])
    ++ (if beginsIdentifier character then [.identifier] else [])

def FamilyPlace.afterFamilyStart (character : Char) : List FamilyPlace :=
  (if character == '"' || character == '\x27' then [.quoted character] else [])
    ++ afterIdentifierStart character

def FamilyPlace.step (character : Char) : FamilyPlace → List FamilyPlace
  | .start => afterFamilyStart character
  | .next =>
    (if Text.isBlank character then [.next] else []) ++ afterFamilyStart character
  | .hyphen => if beginsIdentifier character then [.identifier] else []
  | .identifier =>
    (if continuesIdentifier character then [.identifier] else [])
      ++ (if Text.isBlank character then [.gap] else [])
      ++ (if character == ',' then [.next] else [])
  | .gap =>
    (if Text.isBlank character then [.gap] else [])
      ++ afterIdentifierStart character
      ++ (if character == ',' then [.next] else [])
  | .quoted quote =>
    if character == quote then [.closed]
    else if character == '\x5c' then [.escape quote]
    else [.quoted quote]
  | .escape quote => if character == '\n' then [] else [.quoted quote]
  | .closed | .ended =>
    (if Text.isBlank character then [.ended] else [])
      ++ (if character == ',' then [.next] else [])

def FamilyPlace.isFinal : FamilyPlace → Bool
  | .identifier | .closed => true
  | _ => false

def placesAfter (places : List FamilyPlace) : List Char → List FamilyPlace
  | [] => places
  | character :: rest =>
    placesAfter (places.flatMap (FamilyPlace.step character)).eraseDups rest

def areFamilies (text : String) : Bool :=
  (placesAfter [.start] text.toList).any FamilyPlace.isFinal

/-- The families that a text lists, cut at every comma and without the blanks
around them. -/
def families (text : String) : List String :=
  (Text.split ',' text).map Text.trim

end TimedText.Style
