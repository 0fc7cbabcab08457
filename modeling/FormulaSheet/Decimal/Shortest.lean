/-!
The shortest decimal that reads back as a given float. Of the decimals with as few digits as
possible between the midpoints to the neighbouring floats, the one nearest to the float is chosen,
and the larger of two that are equally near. All arithmetic is exact.
-/

namespace FormulaSheet.Decimal

/-- Significant digits with the power of ten of the first one: `[2, 5]` and `-3` stand for
`0.0025`. -/
structure Scientific where
  digits : List Char
  exponent : Int

/-- The interval of numbers that round to a positive float: the float and the interval's ends,
over a common denominator. -/
structure Rounding where
  below : Nat
  value : Nat
  above : Nat
  denominator : Nat
  /-- Whether the ends themselves round to the float. -/
  closed : Bool

/-- Multiplies the interval by a power of ten. -/
def Rounding.scale (r : Rounding) (power : Int) : Rounding :=
  if power < 0 then { r with denominator := r.denominator * Nat.pow 10 power.natAbs }
  else
    let factor := Nat.pow 10 power.natAbs
    { r with below := r.below * factor, value := r.value * factor, above := r.above * factor }

/-- Whether a whole number lies in the interval. -/
def Rounding.holds (r : Rounding) (candidate : Nat) : Bool :=
  let scaled := candidate * r.denominator
  if r.closed then r.below ≤ scaled && scaled ≤ r.above
  else r.below < scaled && scaled < r.above

/-- The significand of a power of two, with its leading bit only. -/
def leadingBit : Nat := Nat.pow 2 52

/-- The interval of the positive float with significand `significand` and weight `2 ^ exponent`.
Below a power of two the neighbour is only half as far as above it. -/
def Rounding.ofBinary (significand : Nat) (exponent : Int) : Rounding :=
  let lower := if significand = leadingBit then 1 else 2
  let shift := exponent - 2
  let (factor, denominator) :=
    if shift < 0 then (1, Nat.pow 2 shift.natAbs) else (Nat.pow 2 shift.natAbs, 1)
  { below := (4 * significand - lower) * factor
    value := 4 * significand * factor
    above := (4 * significand + 2) * factor
    denominator
    closed := significand % 2 = 0 }

/-- The number of decimal digits of a number. -/
def digitCount (n : Nat) : Nat := (Nat.toDigits 10 n).length

/-- The power of ten of the leading digit of the value. -/
def Rounding.magnitude (r : Rounding) : Int :=
  if r.denominator ≤ r.value then (digitCount (r.value / r.denominator) : Int) - 1
  else -(digitCount ((r.denominator + r.value - 1) / r.value - 1) : Int)

/-- A whole number nearest to the value among its two neighbours that lie in the interval, if any.
-/
def Rounding.nearest? (r : Rounding) : Option Nat :=
  let down := r.value / r.denominator
  let remainder := r.value % r.denominator
  let up := down + 1
  match r.holds down, r.holds up with
  | true, true => some (if 2 * remainder < r.denominator then down else up)
  | true, false => some down
  | false, true => some up
  | false, false => none

/-- Tries grids of `count`, `count + 1`, … digits, `tries` of them. -/
def Rounding.search (r : Rounding) (magnitude : Int) (count : Nat) : Nat → Option Scientific
  | 0 => none
  | tries + 1 =>
    match (r.scale (count - 1 - magnitude)).nearest? with
    | some candidate =>
      let digits := Nat.toDigits 10 candidate
      let significant := (digits.reverse.dropWhile (· = '0')).reverse
      some ⟨significant, magnitude - (count - 1) + (digits.length - 1)⟩
    | none => r.search magnitude (count + 1) tries

/-- Significand and exponent of a finite float without its sign. -/
def binaryParts (x : Float) : Nat × Int :=
  let bits := x.toBits.toNat
  let exponent := bits / leadingBit % Nat.pow 2 11
  let fraction := bits % leadingBit
  if exponent = 0 then (fraction, -1074) else (leadingBit + fraction, (exponent : Int) - 1075)

/-- The shortest digits of a finite float without its sign; zero has the digit `0`. Seventeen digits
always suffice. -/
def shortest (x : Float) : Scientific :=
  let (significand, exponent) := binaryParts x
  if significand = 0 then ⟨['0'], 0⟩
  else
    let r := Rounding.ofBinary significand exponent
    (r.search r.magnitude 1 17).getD ⟨['0'], 0⟩

end FormulaSheet.Decimal
