import FormulaSheet.Formula.Printer
import FormulaSheet.Scope.Table
import FormulaSheet.Target.Program

/-!
Lowering a sheet to a program. An assignment becomes a field with a function for its value, a
definition becomes a function, and each statement adds two lines to the main routine: its text and
its result.
-/

namespace FormulaSheet

open Target (Program Expr Callee Ty)

/-- `ty_of`: the type that holds values of a kind. -/
def Target.Ty.ofKind : NumberKind → Ty
  | .integer => .long
  | .float => .double

/-- `builtin_callee`: the function of the program that computes a built-in function. -/
def Builtin.callee : Builtin → Callee
  | .sin => .math .sin
  | .cos => .math .cos
  | .tan => .math .tan
  | .pow => .math .pow
  | .sqrt => .math .sqrt
  | .sec => .helper .sec
  | .csc => .helper .csc
  | .cot => .helper .cot
  | .sech => .helper .sech
  | .csch => .helper .csch
  | .coth => .helper .coth
  | .root => .helper .nthRoot

/-- The expression for a value; a free name is asked for. -/
def ValueRef.expr (name : String) : ValueRef → Expr
  | .pi => .pi
  | .bound generated => .variable generated
  | .free => .call (.helper .readNumber) [.string name]

def FunctionRef.callee : FunctionRef → Callee
  | .builtin function => function.callee
  | .user name => .user name

/-- An operation on lowered operands. A quotient is always one of doubles. -/
def BinaryOp.lower (op : BinaryOp) (lhs rhs : Expr) : Expr :=
  match op with
  | .div => .binary .div (.cast .double lhs) rhs
  | op => .binary op lhs rhs

mutual

/-- `lower_expr`: the expression for a formula. -/
def Formula.lower (scope : SymbolTable) (line : Option Nat) : Formula → Except Fault Expr
  | .number (.integer value) => return .long value
  | .number (.float value) => return .double value
  | .identifier name => return (← scope.value name line).expr name
  | .binary op lhs rhs => do
    let left ← lhs.lower scope line
    let right ← rhs.lower scope line
    return op.lower left right
  | .unary .plus operand => operand.lower scope line
  | .unary .minus operand => return .neg (← operand.lower scope line)
  | .call name arguments => do
    let function ← scope.function name arguments.length line
    return .call function.callee (← Formula.lowerAll scope line arguments)
  | .assignment _ _ | .definition _ _ _ => throw (.unsupported .nestedDeclaration line)
  | .empty => throw (.unsupported .emptyExpression line)

/-- The expressions for several formulas; the first fault counts. -/
def Formula.lowerAll (scope : SymbolTable) (line : Option Nat) :
    List Formula → Except Fault (List Expr)
  | [] => return []
  | formula :: rest => do
    let first ← formula.lower scope line
    return first :: (← Formula.lowerAll scope line rest)

end

/-- `Codegen`: the program so far and the names bound in it. -/
structure Lowering where
  program : Program := {}
  globals : SymbolTable := {}

namespace Lowering

/-- The program with two more lines printed: the text of a statement and its result. -/
def printed (program : Program) (statement : Statement) (result : Target.Action) : Program :=
  { program with main := program.main ++ [.line statement.body.text, result] }

/-- `codegen_statement`: lowers one statement. An assignment sees the names bound before it, its own
old value included, and a function cannot call itself. -/
def statement (naming : Naming) (state : Lowering) (statement : Statement) :
    Except Fault Lowering :=
  match statement.body with
  | .assignment name value => do
    let body ← value.lower state.globals statement.line
    let kind := state.globals.kindOf value
    let ty := Ty.ofKind kind
    let (globals, field) := state.globals.declareVariable naming name kind
    let init := naming.init field
    let program := { state.program with
      fields := state.program.fields ++ [⟨field, ty, init⟩]
      functions := state.program.functions ++ [⟨init, [], ty, body⟩] }
    return ⟨printed program statement (.value (some name) (.variable field)), globals⟩
  | .definition name parameters body => do
    let scope := state.globals.enterFunction naming parameters
    let lowered ← body.lower scope statement.line
    let (globals, function) := state.globals.declareFunction naming name parameters.length
    let program := { state.program with
      functions := state.program.functions ++
        [⟨function, parameters.map naming.parameter, .double, lowered⟩] }
    let declared := name ++ "(" ++ String.intercalate ", " parameters ++ ") declared"
    return ⟨printed program statement (.line declared), globals⟩
  | body => do
    let value ← body.lower state.globals statement.line
    return { state with program := printed state.program statement (.value none value) }

/-- `codegen_program`: lowers statements in order; the first fault ends it. -/
def statements (naming : Naming) (state : Lowering) : List Statement → Except Fault Lowering
  | [] => .ok state
  | first :: rest =>
    match state.statement naming first with
    | .ok next => next.statements naming rest
    | .error fault => .error fault

end Lowering

end FormulaSheet
