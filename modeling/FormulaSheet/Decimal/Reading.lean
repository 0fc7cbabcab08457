import FormulaSheet.Decimal.Digits

/-!
Floating-point numbers read from text: a sign, then `inf`, `infinity` or `nan` in any case, or
digits with an optional point and an optional exponent. The number nearest to the decimal is
taken, with a tie going to the even significand.
-/

namespace FormulaSheet.Decimal

/-- A decimal before rounding: `coefficient * 10 ^ exponent`. -/
structure Scaled where
  coefficient : Nat
  exponent : Int

/-- The exponent behind the digits: nothing, or `e` and an integer. -/
def exponent? : List Char → Option Int
  | [] => some 0
  | c :: cs => if c = 'e' ∨ c = 'E' then integer? cs else none

/-- Digits with an optional point, at least one digit in all, and an optional exponent. -/
def scaled? (cs : List Char) : Option Scaled :=
  let whole := cs.takeWhile Char.isDigit
  let rest := cs.dropWhile Char.isDigit
  let (fraction, rest) :=
    match rest with
    | '.' :: tail => (tail.takeWhile Char.isDigit, tail.dropWhile Char.isDigit)
    | _ => ([], rest)
  match numeral? 10 (whole ++ fraction), exponent? rest with
  | some coefficient, some exponent => some ⟨coefficient, exponent - fraction.length⟩
  | _, _ => none

/-- The float nearest to a decimal. -/
def Scaled.toFloat (x : Scaled) : Float :=
  Float.ofScientific x.coefficient (x.exponent < 0) x.exponent.natAbs

/-- A number without its sign. -/
def magnitude? (cs : List Char) : Option Float :=
  let lower := String.ofList (cs.map Char.toLower)
  if lower = "inf" ∨ lower = "infinity" then some (1.0 / 0.0)
  else if lower = "nan" then some (0.0 / 0.0)
  else (scaled? cs).map Scaled.toFloat

/-- A floating-point number that makes up the whole text. -/
def float? : List Char → Option Float
  | '+' :: cs => magnitude? cs
  | '-' :: cs => (magnitude? cs).map Float.neg
  | cs => magnitude? cs

/-- The text with every comma as a point: both separate the decimals. -/
def pointed (cs : List Char) : List Char := cs.map fun c => if c = ',' then '.' else c

end FormulaSheet.Decimal
