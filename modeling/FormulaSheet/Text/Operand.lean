/-!
Operands of infix operators as text.
-/

namespace FormulaSheet.Text

/-- The text of an operand and how strongly it holds together. -/
structure Operand where
  strength : Nat
  text : String

/-- `write_operand` and `parenthesize`: the operand in a place that asks for a strength of at least
`least`: a weaker one is put in parentheses. -/
def Operand.enclosed (operand : Operand) (least : Nat) : String :=
  if operand.strength < least then "(" ++ operand.text ++ ")" else operand.text

end FormulaSheet.Text
