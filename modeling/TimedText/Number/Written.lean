import TimedText.Number.Shortest
/-!
The forms in which reports write numbers: instants and gaps in seconds, bounds
inside a sentence, and measures with a fixed number of places.
-/

namespace TimedText.Number

/-- Seconds in reports: the shortest text, whole numbers ending in `.0`. -/
def secondsText (number : Float) : String :=
  match value number with
  | .finite exact => shortest number ++ (if exact.isWhole then ".0" else "")
  | _ => shortest number

/-- Bounds in messages: whole numbers below `10 ^ 15` as such, without the sign
of a zero, all others in their shortest text. -/
def plainText (number : Float) : String :=
  match value number with
  | .finite exact =>
    if exact.isWhole ∧ exact.ratio.1 / exact.ratio.2 < 10 ^ 15 then
      toString exact.floor
    else shortest number
  | _ => shortest number

/-- The text with a fixed number of places, the exact value being rounded and a
tie going to the even neighbour. -/
def fixedText (places : Nat) (number : Float) : String :=
  match value number with
  | .undefined => "NaN"
  | .infinite negative => if negative then "-inf" else "inf"
  | .finite exact =>
    let (numerator, denominator) := exact.ratio
    let units := roundToEven (numerator * 10 ^ places) denominator
    (if exact.negative then "-" else "")
      ++ toString (units / 10 ^ places) ++ "."
      ++ zeroFilled places (toString (units % 10 ^ places))

end TimedText.Number
