import FormulaSheet.Decimal.Shortest

/-!
How a float is laid out as text: positional or with an exponent, and with which marks. A `Layout`
holds the choices of one format; the digits are always the shortest ones.
-/

namespace FormulaSheet.Decimal

/-- The choices of a number format. -/
structure Layout where
  /-- The least power of ten of a leading digit that is written positionally. -/
  least : Int
  /-- The greatest such power. -/
  greatest : Int
  /-- What follows a whole number written positionally. -/
  wholeSuffix : String
  /-- What stands before a non-negative exponent. -/
  positiveMark : String
  /-- What stands before the size of a negative exponent. -/
  negativeMark : String
  /-- The least number of digits of an exponent. -/
  exponentWidth : Nat
  infinity : String

/-- Digits with the point where it belongs. -/
def Layout.positional (layout : Layout) (x : Scientific) : String :=
  if x.exponent < 0 then
    "0." ++ String.ofList (List.replicate (x.exponent.natAbs - 1) '0' ++ x.digits)
  else
    let whole := x.exponent.natAbs + 1
    if x.digits.length ≤ whole then
      String.ofList (x.digits ++ List.replicate (whole - x.digits.length) '0') ++ layout.wholeSuffix
    else
      String.ofList (x.digits.take whole) ++ "." ++ String.ofList (x.digits.drop whole)

/-- One digit before the point, and an exponent. -/
def Layout.exponential (layout : Layout) (x : Scientific) : String :=
  let size := Nat.toDigits 10 x.exponent.natAbs
  let exponent := String.ofList (List.replicate (layout.exponentWidth - size.length) '0' ++ size)
  let mark := if x.exponent < 0 then layout.negativeMark else layout.positiveMark
  let tail := x.digits.drop 1
  String.ofList (x.digits.take 1) ++ (if tail.isEmpty then "" else "." ++ String.ofList tail) ++
    mark ++ exponent

/-- Whether a float carries a minus sign; negative zero does. -/
def isNegative (x : Float) : Bool := Nat.pow 2 63 ≤ x.toBits.toNat

/-- The text of a float. -/
def Layout.text (layout : Layout) (x : Float) : String :=
  if x.isNaN then "NaN"
  else
    let size :=
      if x.isInf then layout.infinity
      else
        let digits := shortest x
        if layout.least ≤ digits.exponent && digits.exponent ≤ layout.greatest then
          layout.positional digits
        else layout.exponential digits
    if isNegative x then "-" ++ size else size

/-- `double_literal`: literals: always recognisable as floating point, with an exponent below
`0.0001` and from `1e16` on. -/
def literal : Layout where
  least := -4
  greatest := 15
  wholeSuffix := ".0"
  positiveMark := "e"
  negativeMark := "e-"
  exponentWidth := 1
  infinity := "inf"

/-- `write_double`: printed values: whole numbers without a point, with a signed exponent of at
least two digits below `0.0001` and from `1E+15` on. -/
def printed : Layout where
  least := -4
  greatest := 14
  wholeSuffix := ""
  positiveMark := "E+"
  negativeMark := "E-"
  exponentWidth := 2
  infinity := "Infinity"

end FormulaSheet.Decimal
