import FormulaSheet.Formula.Basic
import FormulaSheet.Text.Operand

/-!
Formulas as text, with as few parentheses as the precedence of the operators allows. All binary
operators associate to the left, and a power binds tighter than a sign.
-/

namespace FormulaSheet.Formula

open Text (Operand)

/-- How strongly a formula holds together: an operand weaker than its place asks for is put in
parentheses. -/
def precedence : Formula → Nat
  | .assignment _ _ | .definition _ _ _ => 0
  | .binary .add _ _ | .binary .sub _ _ => 1
  | .binary _ _ _ => 2
  | .unary _ _ => 3
  | .call name _ => if name = "pow" then 4 else 5
  | .number _ | .identifier _ | .empty => 5

/-- A call; a power of two operands has a sign of its own. -/
def callText (name : String) (arguments : List Operand) : String :=
  match name, arguments with
  | "pow", [base, exponent] => base.enclosed 5 ++ "^" ++ exponent.enclosed 5
  | _, _ => name ++ "(" ++ String.intercalate ", " (arguments.map Operand.text) ++ ")"

mutual

/-- `fmt`: the text of a formula. -/
def text : Formula → String
  | .number value => value.text
  | .identifier name => name
  | .binary op lhs rhs =>
    let strength := (Formula.binary op lhs rhs).precedence
    let left := Operand.mk lhs.precedence lhs.text
    let right := Operand.mk rhs.precedence rhs.text
    left.enclosed strength ++ " " ++ op.symbol ++ " " ++ right.enclosed (strength + 1)
  | .unary op operand => op.symbol ++ (Operand.mk operand.precedence operand.text).enclosed 3
  | .call name arguments => callText name (operands arguments)
  | .assignment name value => name ++ " = " ++ value.text
  | .definition name parameters body =>
    name ++ "(" ++ String.intercalate ", " parameters ++ ") = " ++ body.text
  | .empty => ""

/-- Several formulas as operands. -/
def operands : List Formula → List Operand
  | [] => []
  | formula :: rest => ⟨formula.precedence, formula.text⟩ :: operands rest

end

end FormulaSheet.Formula
