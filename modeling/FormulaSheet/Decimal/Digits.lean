/-!
Digits read from text and written to it. A numeral is a non-empty run of digits, and an integer is a
numeral with an optional sign.
-/

namespace FormulaSheet.Decimal

/-- The value of a digit in base 16; the letters come in both cases. -/
def hexValue? (c : Char) : Option Nat :=
  if '0' ≤ c ∧ c ≤ '9' then some (c.toNat - '0'.toNat)
  else if 'a' ≤ c ∧ c ≤ 'f' then some (c.toNat - 'a'.toNat + 10)
  else if 'A' ≤ c ∧ c ≤ 'F' then some (c.toNat - 'A'.toNat + 10)
  else none

/-- The value of a digit in `base`, for a base of at most 16. -/
def digitValue? (base : Nat) (c : Char) : Option Nat :=
  (hexValue? c).filter (· < base)

/-- Reads digits behind those that have given `value` so far. -/
def numeralFrom? (base : Nat) (value : Nat) : List Char → Option Nat
  | [] => some value
  | c :: cs =>
    match digitValue? base c with
    | some digit => numeralFrom? base (value * base + digit) cs
    | none => none

/-- The value of a non-empty run of digits. -/
def numeral? (base : Nat) : List Char → Option Nat
  | [] => none
  | c :: cs => numeralFrom? base 0 (c :: cs)

/-- A numeral behind an optional `+`. -/
def unsigned? (base : Nat) : List Char → Option Nat
  | '+' :: cs => numeral? base cs
  | cs => numeral? base cs

/-- A decimal numeral behind an optional sign. -/
def integer? : List Char → Option Int
  | '+' :: cs => (numeral? 10 cs).map Int.ofNat
  | '-' :: cs => (numeral? 10 cs).map fun value => -Int.ofNat value
  | cs => (numeral? 10 cs).map Int.ofNat

/-- An integer of 64 bits; one out of range is refused. -/
def int64? (cs : List Char) : Option Int64 :=
  match integer? cs with
  | some value =>
    if Int64.minValue.toInt ≤ value ∧ value ≤ Int64.maxValue.toInt then some (Int64.ofInt value)
    else none
  | none => none

/-- The decimal form of an integer. -/
def integerText (value : Int) : String :=
  let digits := Nat.toDigits 10 value.natAbs
  String.ofList (if value < 0 then '-' :: digits else digits)

end FormulaSheet.Decimal
