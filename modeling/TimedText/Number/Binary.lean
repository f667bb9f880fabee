import TimedText.Number.Digits
/-!
Floating-point numbers taken apart: the exact value that a finite one stands
for, its place on the line of all numbers, and the whole numbers next to it.
-/

namespace TimedText.Number

structure Exact where
  negative : Bool
  mantissa : Nat
  exponent : Int

inductive Value where
  | finite (exact : Exact)
  | infinite (negative : Bool)
  | undefined

def value (number : Float) : Value :=
  let bits : Nat := number.toBits.toNat
  let negative := bits / 2 ^ 63 == 1
  let biased : Nat := bits / 2 ^ 52 % 2 ^ 11
  let fraction : Nat := bits % 2 ^ 52
  if biased = 2047 then
    if fraction = 0 then .infinite negative else .undefined
  else if biased = 0 then .finite ⟨negative, fraction, -1074⟩
  else .finite ⟨negative, fraction + 2 ^ 52, (biased : Int) - 1075⟩

namespace Exact

def ratio (exact : Exact) : Nat × Nat :=
  match exact.exponent with
  | .ofNat exponent => (exact.mantissa * 2 ^ exponent, 1)
  | .negSucc exponent => (exact.mantissa, 2 ^ (exponent + 1))

def floor (exact : Exact) : Int :=
  let (numerator, denominator) := exact.ratio
  if exact.negative then -(((numerator + denominator - 1) / denominator : Nat) : Int)
  else ((numerator / denominator : Nat) : Int)

def isWhole (exact : Exact) : Bool :=
  let (numerator, denominator) := exact.ratio
  numerator % denominator == 0

end Exact

def ofInt (whole : Int) : Float :=
  match whole with
  | .ofNat size => Float.ofScientific size false 0
  | .negSucc size => -Float.ofScientific (size + 1) false 0

/-- The nearest floating-point number to `digits / 10 ^ places`. -/
def ofDecimal (digits places : Nat) : Float :=
  Float.ofScientific digits true places

def floor (number : Float) : Float :=
  match value number with
  | .finite exact =>
    if exact.isWhole then number else ofInt exact.floor
  | _ => number

def roundHalfAway (number : Float) : Float :=
  match value number with
  | .finite exact =>
    let (numerator, denominator) := exact.ratio
    let rounded := Float.ofScientific (roundUpward numerator denominator) false 0
    if exact.negative then -rounded else rounded
  | _ => number

/-- The whole part of a number as a count: negative numbers and undefined ones
give zero, and the greatest count is `2 ^ 64 - 1`. -/
def toCount (number : Float) : Nat :=
  match value number with
  | .finite exact =>
    if exact.negative then 0
    else
      let (numerator, denominator) := exact.ratio
      min (numerator / denominator) (2 ^ 64 - 1)
  | .infinite negative => if negative then 0 else 2 ^ 64 - 1
  | .undefined => 0

/-- The place of a number on the line, both zeros having the place zero; an
undefined number has none. Numbers compare as their places do. -/
def place? (number : Float) : Option Int :=
  match value number with
  | .undefined => none
  | _ =>
    let bits := number.toBits.toNat
    if bits < 2 ^ 63 then some bits else some (-((bits - 2 ^ 63 : Nat) : Int))

/-- The place of a number in the order in which all numbers can be filed: a
negative zero comes before zero, and undefined numbers before all others. -/
def filingPlace (number : Float) : Int :=
  match value number with
  | .undefined => -(2 ^ 64)
  | _ =>
    let bits := number.toBits.toNat
    if bits < 2 ^ 63 then bits else -((bits - 2 ^ 63 : Nat) : Int) - 1

def less (left right : Float) : Bool :=
  match place? left, place? right with
  | some left, some right => left < right
  | _, _ => false

def lessOrEqual (left right : Float) : Bool :=
  match place? left, place? right with
  | some left, some right => left ≤ right
  | _, _ => false

/-- The smaller of two numbers; an undefined number gives way to the other. -/
def smaller (left right : Float) : Float :=
  match place? left, place? right with
  | none, _ => right
  | _, none => left
  | some leftPlace, some rightPlace =>
    if rightPlace < leftPlace then right else left

def greater (left right : Float) : Float :=
  match place? left, place? right with
  | none, _ => right
  | _, none => left
  | some leftPlace, some rightPlace =>
    if leftPlace < rightPlace then right else left

def negativeInfinity : Float := -1 / 0

/-- What is left of a number after as many whole divisors as it holds, with the
sign of the number. The result is exact. -/
def remainder (number : Float) (divisor : Nat) : Float :=
  match value number with
  | .finite exact =>
    let rest :=
      match exact.exponent with
      | .ofNat exponent =>
        ofDecimal (exact.mantissa * 2 ^ exponent % divisor) 0
      | .negSucc exponent =>
        let places := exponent + 1
        ofDecimal (exact.mantissa % (divisor * 2 ^ places) * 5 ^ places) places
    if exact.negative then -rest else rest
  | _ => 0 / 0

end TimedText.Number
