import TimedText.Number.Numeral
import TimedText.Text.Blank
/-!
The forms that values of style attributes take: words, colours, percentages,
lengths in cells, lists of font families and of references.
-/

namespace TimedText.Style

open Number

def isOneOf (words : List String) (text : String) : Bool :=
  words.contains text

/-! ## Colours -/

structure Colour where
  red : Nat
  green : Nat
  blue : Nat
  alpha : Option Nat
deriving DecidableEq, Repr

def Colour.read? (text : String) : Option Colour :=
  let channel (high low : Char) : Nat := Text.digitsValue 16 [high, low]
  match text.toList with
  | ['#', a, b, c, d, e, f] =>
    if [a, b, c, d, e, f].all Text.isHexDigit then
      some ⟨channel a b, channel c d, channel e f, none⟩
    else none
  | ['#', a, b, c, d, e, f, g, h] =>
    if [a, b, c, d, e, f, g, h].all Text.isHexDigit then
      some ⟨channel a b, channel c d, channel e f, some (channel g h)⟩
    else none
  | _ => none

def Colour.isTransparent (colour : Colour) : Bool :=
  colour.alpha == some 0

def isColour (text : String) : Bool := (Colour.read? text).isSome

/-! ## Numerals with units -/

def numeralBefore? (unit : Char) (characters : List Char) : Option Numeral :=
  match Numeral.take? characters with
  | some (numeral, [character]) => if character = unit then some numeral else none
  | _ => none

def isPercentage (text : String) : Bool :=
  (numeralBefore? '%' text.toList).isSome

def isCellLength (text : String) : Bool :=
  (numeralBefore? 'c' text.toList).isSome

def wordsWithin (characters : List Char) : List (List Char) :=
  if Text.trimmed characters = characters then Text.blankSeparated characters else []

def isPadding (text : String) : Bool :=
  let words := wordsWithin text.toList
  1 ≤ words.length && words.length ≤ 4
    && words.all fun word => (numeralBefore? '%' word).isSome

/-- Whether the value of a numeral is at most one hundred, whatever zeros stand
before it. -/
def isWithinHundred (numeral : Numeral) : Bool :=
  let significant := numeral.whole.dropWhile (· == '0')
  significant.length ≤ 2
    || (significant = ['1', '0', '0']
      && (numeral.fraction.getD []).all (· == '0'))

def boundedPercentage? (word : List Char) : Option Numeral :=
  (numeralBefore? '%' word).filter isWithinHundred

def readPair? (text : String) : Option (Numeral × Numeral) :=
  match wordsWithin text.toList with
  | [first, second] =>
    match boundedPercentage? first, boundedPercentage? second with
    | some first, some second => some (first, second)
    | _, _ => none
  | _ => none

def isPair (text : String) : Bool := (readPair? text).isSome

/-! ## References -/

def separatesReferences (character : Char) : Bool :=
  character == '\t' || character == '\x0c' || character == ' '

def isReference : List Char → Bool
  | [] => false
  | first :: rest =>
    (Text.isLetter first || first == '_') && !rest.any Text.isBlank

/-- Whether a text is a list of references, perhaps an empty one, that neither
starts nor ends with a separator. -/
def areReferences (text : String) : Bool :=
  let pieces := Text.pieces separatesReferences text.toList
  text.isEmpty ||
    ((pieces.head?.all fun piece => !piece.isEmpty)
      && (pieces.getLast?.all fun piece => !piece.isEmpty)
      && (pieces.filter fun piece => !piece.isEmpty).all isReference)

end TimedText.Style
