import TimedText.Number.Binary
/-!
The shortest decimal text of a floating-point number: the fewest digits that
read back as the number, and of those the ones nearest to it. Of two equally
near ones the greater is taken. The point stands among the digits wherever it
belongs; powers of ten are never written.
-/

namespace TimedText.Number

/-- The numbers of a binary format that round to one value: from `low` to
`high`, all over one denominator, the ends belonging to it or not. -/
structure Interval where
  low : Nat
  middle : Nat
  high : Nat
  denominator : Nat
  closed : Bool

/-- The interval of a positive finite number. Below a power of two the numbers
lie twice as dense, so the interval reaches half as far down. -/
def Exact.interval (exact : Exact) : Interval :=
  let thin := exact.mantissa == 2 ^ 52 && exact.exponent > -1074
  let low := if thin then 4 * exact.mantissa - 1 else 4 * exact.mantissa - 2
  let closed := exact.mantissa % 2 == 0
  match exact.exponent - 2 with
  | .ofNat exponent =>
    let scale := 2 ^ exponent
    ⟨low * scale, 4 * exact.mantissa * scale, (4 * exact.mantissa + 2) * scale, 1,
      closed⟩
  | .negSucc exponent =>
    ⟨low, 4 * exact.mantissa, 4 * exact.mantissa + 2, 2 ^ (exponent + 1), closed⟩

def Interval.contains (interval : Interval) (units : Nat) (exponent : Int) : Bool :=
  let (point, scale) :=
    match exponent with
    | .ofNat exponent => (units * 10 ^ exponent * interval.denominator, 1)
    | .negSucc exponent => (units * interval.denominator, 10 ^ (exponent + 1))
  let low := interval.low * scale
  let high := interval.high * scale
  if interval.closed then low ≤ point && point ≤ high
  else low < point && point < high

/-- The point of the grid of multiples of `10 ^ exponent` that lies in the
interval nearest to its middle, in units of the grid. -/
def Interval.onGrid? (interval : Interval) (exponent : Int) : Option Nat :=
  let (numerator, denominator) :=
    match exponent with
    | .ofNat exponent => (interval.middle, interval.denominator * 10 ^ exponent)
    | .negSucc exponent => (interval.middle * 10 ^ (exponent + 1), interval.denominator)
  let below := numerator / denominator
  let nearest := roundUpward numerator denominator
  if nearest > 0 && interval.contains nearest exponent then some nearest
  else if below > 0 && interval.contains below exponent then some below
  else if interval.contains (below + 1) exponent then some (below + 1)
  else none

/-- Digits and a power of ten for a positive finite number: the coarsest grid
that meets the interval. The first grid tried is coarser than the number. -/
def Exact.shortest (exact : Exact) : Nat × Int :=
  let interval := exact.interval
  let magnitude : Int := exact.exponent + Nat.log2 exact.mantissa + 1
  let coarsest := magnitude * 30103 / 100000 + 1
  let grids := (List.range 22).map fun step : Nat => coarsest - step
  let found := grids.findSome? fun exponent =>
    (interval.onGrid? exponent).map fun units => (units, exponent)
  found.getD (0, 0)

def positional (units : Nat) (exponent : Int) : String :=
  match exponent with
  | .ofNat exponent => toString (units * 10 ^ exponent)
  | .negSucc exponent =>
    let places := exponent + 1
    toString (units / 10 ^ places) ++ "."
      ++ zeroFilled places (toString (units % 10 ^ places))

def shortest (number : Float) : String :=
  match value number with
  | .undefined => "NaN"
  | .infinite negative => if negative then "-inf" else "inf"
  | .finite exact =>
    let (units, exponent) := if exact.mantissa = 0 then (0, 0) else exact.shortest
    (if exact.negative then "-" else "") ++ positional units exponent

end TimedText.Number
