import TimedText.Number.Power
/-!
Whole numbers as digits, and the rounding of a quotient to a whole number.
-/

namespace TimedText.Number

def hexadecimal (number : Nat) : String :=
  String.ofList (Nat.toDigits 16 number)

example : hexadecimal 0x301 = "301" := by decide

def zeroFilled (width : Nat) (digits : String) : String :=
  String.ofList (List.replicate (width - digits.length) '0') ++ digits

def hexadecimalByte (byte : UInt8) : String :=
  zeroFilled 2 (hexadecimal byte.toNat)

/-- The whole number nearest to a quotient; of two equally near ones the even
one. -/
def roundToEven (numerator denominator : Nat) : Nat :=
  let quotient := numerator / denominator
  let twice := 2 * (numerator % denominator)
  if twice < denominator then quotient
  else if twice = denominator then quotient + quotient % 2
  else quotient + 1

/-- The whole number nearest to a quotient; of two equally near ones the
greater one. -/
def roundUpward (numerator denominator : Nat) : Nat :=
  (2 * numerator + denominator) / (2 * denominator)

example : roundToEven 5 2 = 2 := rfl
example : roundUpward 5 2 = 3 := rfl

end TimedText.Number
