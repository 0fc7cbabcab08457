import FormulaSheet.Formula.Basic
import FormulaSheet.Formula.Lists

/-!
The grammar of formulas. A sum is made of terms, a term of factors that are multiplied, divided or
put side by side, and a factor is a number, a name, a call, a group or one of the two-dimensional
forms.

Factors contain sums again. The rules are therefore written with the rule for a factor as an
argument, and `factorAt` closes the circle with a bound on the nesting. The bound that `factor`
uses is the number of elements left in the row and below it, which no formula can exceed: every
step inwards leaves at least one element behind.
-/

namespace FormulaSheet

open Markup (Element)

mutual

/-- The number of elements of a tree. -/
def Markup.Element.weight : Element → Nat
  | ⟨_, _, _, children⟩ => 1 + listWeight children

/-- The number of elements of several trees. -/
def Markup.Element.listWeight : List Element → Nat
  | [] => 0
  | element :: rest => element.weight + Markup.Element.listWeight rest

end

/-- The number of elements still to be read, and of those below them. -/
def Row.weight (row : Row) : Nat := Element.listWeight row.rest

namespace Grammar

open Rule

/-- Valid tags that have no meaning in a formula. -/
def unsupportedTags : List String :=
  ["mtable", "msub", "msubsup", "munder", "mover", "munderover", "mmultiscripts"]

/-- `parse_number`: reads a number. -/
def number : Rule Formula := do
  let element ← take "mn"
  if element.value.isEmpty then complain .emptyNumber element.line
  else
    match Number.ofText? element.value with
    | some value => return .number value
    | none => complain (.unreadableNumber element.value) element.line

/-- `parse_identifier`: reads a name. -/
def identifier : Rule String := do
  let row ← get
  match row.rest with
  | [] => complain .missingIdentifier row.owner
  | element :: _ =>
    if element.name = "mi" ∨ element.name = "mtext" then
      set row.advance
      if element.value.isEmpty then complain (.emptyIdentifier element.name) element.line
      else return element.value
    else complain (.notIdentifier element.name) element.line

/-- A call, if it has as many arguments as the function takes. Only built-in functions are known
here. -/
def invocation (name : String) (arguments : List Formula) (line : Nat) : Except Fault Formula :=
  match Builtin.arityOf? name with
  | some expected =>
    if arguments.length = expected then .ok (.call name arguments)
    else .error (.arity name expected arguments.length line)
  | none => .ok (.call name arguments)

/-- Reads the factors behind the first ones of a term, `limit` of them at most. Factors side by
side are gathered in `run` and multiplied; a sign takes their product as its left operand. -/
def termTail (factor : Rule Formula) (run : List Formula) : Nat → Rule Formula
  | 0 => return Formula.product run
  | limit + 1 => do
    match (← get).rest with
    | [] => return Formula.product run
    | element :: _ =>
      match element.operator? with
      | some .times =>
        let _ ← take "mo"
        let operand ← factor
        termTail factor [.binary .mul (Formula.product run) operand] limit
      | some .divide =>
        let _ ← take "mo"
        let operand ← factor
        termTail factor [.binary .div (Formula.product run) operand] limit
      | some operator =>
        if operator.endsTerm then return Formula.product run
        else termTail factor (run ++ [← factor]) limit
      | none => termTail factor (run ++ [← factor]) limit

/-- `parse_term`: reads a term, given the rule for a factor. -/
def termWith (factor : Rule Formula) : Rule Formula := do
  let first ← factor
  termTail factor [first] (← get).remaining

/-- Reads the terms that are added to `sum` or subtracted from it, `limit` of them at most. -/
def sumTail (term : Rule Formula) (sum : Formula) : Nat → Rule Formula
  | 0 => return sum
  | limit + 1 => do
    match ← operator? with
    | some .plus =>
      let _ ← take "mo"
      let operand ← term
      sumTail term (.binary .add sum operand) limit
    | some .minus =>
      let _ ← take "mo"
      let operand ← term
      sumTail term (.binary .sub sum operand) limit
    | _ => return sum

/-- `parse_expr`: reads a sum, given the rule for a term. -/
def sumWith (term : Rule Formula) : Rule Formula := do
  let first ← term
  sumTail term first (← get).remaining

/-- Reads an expression, given the rule for a factor. -/
def expressionWith (factor : Rule Formula) : Rule Formula := sumWith (termWith factor)

/-- `parse_arguments`: reads the arguments of a call, given the rule for an expression: in brackets
in the same row, or in one element. -/
def argumentsWith (expression : Rule Formula) : Rule (List Formula) := do
  match ← operator? with
  | some (.opening bracket) => bracketed bracket expression
  | _ => listElement expression

/-- `parse_bracketed_expr`: reads an expression in brackets. -/
def enclosedWith (bracket : Bracket) (expression : Rule Formula) : Rule Formula := do
  let _ ← take "mo"
  let value ← expression
  close bracket
  return value

/-- `parse_operand`: reads one operand of a two-dimensional form. -/
def operandWith (expression : Rule Formula) (construct : String) : Rule Formula := do
  let line := (← get).line
  let window ← takeWindow
  let value ← within window (whole expression)
  if value.isEmpty then complain (.emptyOperand construct) line
  else return value

/-- `parse_pair`: reads a form with two operands. -/
def pairWith (expression : Rule Formula) (element : Element) : Rule (Formula × Formula) := do
  let construct := s!"<{element.name}>"
  modify Row.advance
  if element.children.length = 2 then
    within (Row.ofChildren element) do
      let first ← operandWith expression construct
      let second ← operandWith expression construct
      return (first, second)
  else throw (.arity construct 2 element.children.length element.line)

/-- Reads a factor that begins with an operator, given the rule for a factor. -/
def signedWith (factor : Rule Formula) (element : Element) : Rule Formula :=
  match element.operator? with
  | some .plus => do
    let _ ← take "mo"
    return .unary .plus (← factor)
  | some .minus => do
    let _ ← take "mo"
    return .unary .minus (← factor)
  | some (.opening bracket) => enclosedWith bracket (expressionWith factor)
  | some .application => complain .strayApplication element.line
  | some _ => complain (.misplacedOperator element.value) element.line
  | none => complain (.unknownOperator element.value) element.line

/-- Reads a factor that begins with a name: the name, or a call. -/
def namedWith (factor : Rule Formula) (element : Element) : Rule Formula := do
  let name ← identifier
  if (← operator?) = some .application then
    let _ ← take "mo"
    let arguments ← argumentsWith (expressionWith factor)
    match invocation name arguments element.line with
    | .ok call => return call
    | .error fault => throw fault
  else return .identifier name

/-- `parse_group`: reads a group; an empty one is the empty formula. -/
def groupWith (factor : Rule Formula) (element : Element) : Rule Formula := do
  modify Row.advance
  if element.children.isEmpty then return .empty
  else within (Row.ofChildren element) (whole (expressionWith factor))

/-- Reads a square root. -/
def squareRootWith (factor : Rule Formula) (element : Element) : Rule Formula := do
  modify Row.advance
  if element.children.isEmpty then throw (.arity "<msqrt>" 1 0 element.line)
  else
    let radicand ← within (Row.ofChildren element) (whole (expressionWith factor))
    return .call "sqrt" [radicand]

/-- `parse_factor`: reads a factor, given the rule for the factors inside it. -/
def factorWith (factor : Rule Formula) : Rule Formula := do
  let row ← get
  match row.rest with
  | [] => complain .missingValue row.owner
  | element :: _ =>
    match element.name with
    | "mn" => number
    | "mi" | "mtext" => namedWith factor element
    | "mrow" | "mfenced" => groupWith factor element
    | "mo" => signedWith factor element
    | "mfrac" => do
      let (numerator, denominator) ← pairWith (expressionWith factor) element
      return .binary .div numerator denominator
    | "msup" => do
      let (base, exponent) ← pairWith (expressionWith factor) element
      return .call "pow" [base, exponent]
    | "mroot" => do
      let (radicand, index) ← pairWith (expressionWith factor) element
      return .call "root" [radicand, index]
    | "msqrt" => squareRootWith factor element
    | tag =>
      if tag ∈ unsupportedTags then throw (.unsupported (.tag tag) element.line)
      else complain (.unknownTag tag) element.line

/-- Reads a factor nested less than `depth` deep. -/
def factorAt : Nat → Rule Formula
  | 0 => throw (.internal .nestingLimit)
  | depth + 1 => factorWith (factorAt depth)

/-- Reads a factor. -/
def factor : Rule Formula := fun row => factorAt (row.weight + 1) row

/-- Reads a term. -/
def term : Rule Formula := fun row => termWith (factorAt (row.weight + 1)) row

/-- Reads an expression. -/
def expression : Rule Formula := fun row => expressionWith (factorAt (row.weight + 1)) row

end Grammar

end FormulaSheet
