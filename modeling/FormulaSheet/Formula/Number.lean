import FormulaSheet.Decimal.Layout
import FormulaSheet.Decimal.Reading
import FormulaSheet.Text.Blank

/-!
Number literals. A literal that is an integer of 64 bits is kept exactly; any other is the nearest
finite float, with a point or a comma before its decimals.
-/

namespace FormulaSheet

inductive Number where
  | integer (value : Int64)
  | float (value : Float)
  deriving DecidableEq, Repr

namespace Number

/-- The number that a text without blanks around it spells. -/
def ofTrimmed? (cs : List Char) : Option Number :=
  match Decimal.int64? cs with
  | some value => some (.integer value)
  | none =>
    match Decimal.float? (Decimal.pointed cs) with
    | some value => if value.isFinite then some (.float value) else none
    | none => none

/-- `parse`: the number that a text spells, blanks around it aside. -/
def ofText? (text : String) : Option Number := ofTrimmed? (Text.trim text.toList)

/-- The number as a literal. -/
def text : Number → String
  | .integer value => Decimal.integerText value.toInt
  | .float value => Decimal.literal.text value

end Number

end FormulaSheet
