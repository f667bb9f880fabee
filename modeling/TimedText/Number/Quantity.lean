import TimedText.Number.Numeral
import TimedText.Number.Written
/-!
Quantities: what instants, durations and lengths have to be for the rules to
compare and write them. The rules are stated for any kind of quantity;
floating-point numbers are the kind that documents are measured with.
-/

namespace TimedText

class Quantity (τ : Type) where
  zero : τ
  add : τ → τ → τ
  subtract : τ → τ → τ
  /-- The quantity `digits / 10 ^ places`. -/
  decimal : (digits places : Nat) → τ
  less : τ → τ → Bool
  lessOrEqual : τ → τ → Bool
  smaller : τ → τ → τ
  greater : τ → τ → τ
  /-- A quantity as an upper bound. One that is not comparable bounds nothing,
  and stands below all others. -/
  bounding : τ → τ
  /-- Whether a quantity is filed before another. Every two quantities that
  differ are ordered by this. -/
  filedBefore : τ → τ → Bool
  /-- A quantity of seconds in reports. -/
  text : τ → String
  /-- A quantity of seconds as hours, minutes and seconds. -/
  clockText : τ → String

namespace Number

/-- Seconds as hours and minutes of at least two digits and seconds of two
digits and three places. Only the seconds may have a sign. -/
def clockText (seconds : Float) : String :=
  let hours := floor (seconds / 3600)
  let minutes := floor ((seconds - hours * 3600) / 60)
  let count (number : Float) : String := zeroFilled 2 (toString (toCount number))
  let rest := fixedText 3 (remainder seconds 60)
  let filled :=
    match rest.toList with
    | '-' :: digits => "-" ++ zeroFilled 5 (String.ofList digits)
    | digits => zeroFilled 6 (String.ofList digits)
  count hours ++ ":" ++ count minutes ++ ":" ++ filled

end Number

instance : Quantity Float where
  zero := 0
  add := (· + ·)
  subtract := (· - ·)
  decimal := Number.ofDecimal
  less := Number.less
  lessOrEqual := Number.lessOrEqual
  smaller := Number.smaller
  greater := Number.greater
  bounding number := Number.greater (Number.negativeInfinity) number
  filedBefore left right := Number.filingPlace left < Number.filingPlace right
  text := Number.secondsText
  clockText := Number.clockText

end TimedText
