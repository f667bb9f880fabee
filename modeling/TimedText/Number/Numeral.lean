import TimedText.Number.Binary
import TimedText.Text.Digit
/-!
Numerals in text and the floating-point numbers they name. Every numeral is
read exactly and rounded once.
-/

namespace TimedText.Number

open TimedText.Text

/-- An unsigned numeral: at least one digit, and after a point, if there is
one, at least one more. -/
structure Numeral where
  whole : List Char
  fraction : Option (List Char)
deriving Repr, DecidableEq

namespace Numeral

/-- Takes the longest numeral from the front of the characters. A point that no
digit follows is left in the rest. -/
def take? (characters : List Char) : Option (Numeral × List Char) :=
  let whole := characters.takeWhile isDigit
  let rest := characters.dropWhile isDigit
  if whole.isEmpty then none
  else
    match rest with
    | '.' :: afterPoint =>
      let fraction := afterPoint.takeWhile isDigit
      if fraction.isEmpty then some (⟨whole, none⟩, rest)
      else some (⟨whole, some fraction⟩, afterPoint.dropWhile isDigit)
    | _ => some (⟨whole, none⟩, rest)

def ofChars? (characters : List Char) : Option Numeral :=
  match take? characters with
  | some (numeral, []) => some numeral
  | _ => none

def chars (numeral : Numeral) : List Char :=
  match numeral.fraction with
  | none => numeral.whole
  | some fraction => numeral.whole ++ '.' :: fraction

def toFloat (numeral : Numeral) : Float :=
  let fraction := numeral.fraction.getD []
  ofDecimal (digitsValue 10 (numeral.whole ++ fraction)) fraction.length

example : (ofChars? "1.50".toList).map chars = some "1.50".toList := by decide
example : ofChars? "1.".toList = none := by decide

end Numeral

/-- Decimal digits, a point among or around them allowed, as a digit string and
the number of digits after the point. -/
def pointed? (characters : List Char) : Option (List Char × Nat) :=
  let whole := characters.takeWhile isDigit
  match characters.dropWhile isDigit with
  | [] => if whole.isEmpty then none else some (whole, 0)
  | '.' :: fraction =>
    if fraction.all isDigit ∧ ¬(whole.isEmpty ∧ fraction.isEmpty) then
      some (whole ++ fraction, fraction.length)
    else none
  | _ => none

def signed? : List Char → Option Int
  | '-' :: digits =>
    if digits.isEmpty ∨ !digits.all isDigit then none
    else some (-(digitsValue 10 digits : Int))
  | '+' :: digits =>
    if digits.isEmpty ∨ !digits.all isDigit then none
    else some (digitsValue 10 digits)
  | digits =>
    if digits.isEmpty ∨ !digits.all isDigit then none
    else some (digitsValue 10 digits)

/-- Digits times a power of ten. Powers beyond all floating-point numbers are
not multiplied out. -/
def scaled (digits : Nat) (exponent : Int) : Float :=
  if digits = 0 then 0
  else if exponent > 400 then ofDecimal 1 0 / 0
  else
    match exponent with
    | .ofNat exponent => Float.ofScientific digits false exponent
    | .negSucc exponent =>
      if exponent > 400 + Nat.log2 digits then 0
      else Float.ofScientific digits true (exponent + 1)

/-- An unsigned number with a point and a power of ten, or the word for infinity
or for an undefined number in any case of letters. -/
def unsigned? (characters : List Char) : Option Float :=
  let lower := characters.map Char.toLower
  if lower = "inf".toList ∨ lower = "infinity".toList then some (1 / 0)
  else if lower = "nan".toList then some (0 / 0)
  else
    let mantissa := lower.takeWhile (· != 'e')
    let exponent? :=
      match lower.dropWhile (· != 'e') with
      | [] => some 0
      | _ :: exponent => signed? exponent
    match pointed? mantissa, exponent? with
    | some (digits, places), some exponent =>
      some (scaled (digitsValue 10 digits) (exponent - places))
    | _, _ => none

/-- The floating-point number that a text names: digits with an optional sign,
point and power of ten, `inf`, `infinity` or `nan`. -/
def read? (text : String) : Option Float :=
  match text.toList with
  | '-' :: rest => (unsigned? rest).map fun number => -number
  | '+' :: rest => unsigned? rest
  | characters => unsigned? characters

def readNatural? (bound : Nat) (text : String) : Option Nat :=
  let digits :=
    match text.toList with
    | '+' :: rest => rest
    | characters => characters
  if digits.isEmpty ∨ !digits.all isDigit then none
  else
    let number := digitsValue 10 digits
    if number < bound then some number else none

def readWhole? (bound : Nat) (text : String) : Option Int :=
  (signed? text.toList).filter fun number =>
    -(bound : Int) ≤ number && number < bound

end TimedText.Number
