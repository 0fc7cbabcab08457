import FormulaSheet.Target.Program
import FormulaSheet.Text.Operand

/-!
What the target languages have in common: source text made of indented lines, and arithmetic with
the usual precedence. A `Dialect` holds what differs inside expressions.
-/

namespace FormulaSheet.Target

/-- Lines one step further to the right. An empty line stays empty. -/
def indented (lines : List String) : List String :=
  lines.map fun line => if line.isEmpty then line else "    " ++ line

/-- The source text of lines. -/
def listing (lines : List String) : String := String.join (lines.map (· ++ "\n"))

/-- Blocks with an empty line behind each. -/
def spaced (blocks : List (List String)) : List String := blocks.flatMap (· ++ [""])

/-- How a language writes the expressions that the languages do not share. -/
structure Dialect where
  string : String → String
  cast : Ty → Text.Operand → String

/-- `precedence`: how strongly an expression holds together. A negative literal is as weak as a
negation. -/
def Expr.strength : Expr → Nat
  | .binary .add _ _ | .binary .sub _ _ => 1
  | .binary _ _ _ => 2
  | .neg _ => 3
  | .long value => if value < 0 then 3 else 4
  | .double value => if Decimal.isNegative value then 3 else 4
  | .string _ | .variable _ | .pi | .cast _ _ | .call _ _ => 4

/-- The name of a callee where it is called. -/
def Callee.text : Callee → String
  | .math function => "Math." ++ function.name
  | .helper own => own.name
  | .user name => name

mutual

/-- The text of an expression. -/
def Expr.text (dialect : Dialect) : Expr → String
  | .long value => Decimal.integerText value.toInt ++ "L"
  | .double value => Decimal.literal.text value
  | .string text => dialect.string text
  | .variable name => name
  | .pi => "Math.PI"
  | .binary op lhs rhs =>
    let strength := (Expr.binary op lhs rhs).strength
    let left := Text.Operand.mk lhs.strength (lhs.text dialect)
    let right := Text.Operand.mk rhs.strength (rhs.text dialect)
    left.enclosed strength ++ " " ++ op.symbol ++ " " ++ right.enclosed (strength + 1)
  | .neg operand => "-" ++ (Text.Operand.mk operand.strength (operand.text dialect)).enclosed 4
  | .cast ty operand => dialect.cast ty ⟨operand.strength, operand.text dialect⟩
  | .call callee arguments =>
    callee.text ++ "(" ++ String.intercalate ", " (Expr.texts dialect arguments) ++ ")"

/-- The texts of several expressions. -/
def Expr.texts (dialect : Dialect) : List Expr → List String
  | [] => []
  | expr :: rest => expr.text dialect :: Expr.texts dialect rest

end

/-- `escape_format`: a label inside a format string, where braces are doubled. -/
def formatEscaped (label : String) : String :=
  String.ofList (label.toList.flatMap fun c =>
    if c = '\x7b' ∨ c = '\x7d' then [c, c] else [c])

/-- The format string that prints a value behind its label. -/
def valueFormat : Option String → String
  | some label => formatEscaped label ++ " = \x7b0\x7d"
  | none => "\x7b0\x7d"

end FormulaSheet.Target
