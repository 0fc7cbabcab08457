import FormulaSheet.Formula.Number

/-!
Formulas as trees, and the statements of a sheet. Declarations are formulas too, so that a tree
can hold one anywhere; a sheet has them only as whole statements.
-/

namespace FormulaSheet

inductive BinaryOp where
  | add
  | sub
  | mul
  | div
  deriving DecidableEq, Repr

def BinaryOp.symbol : BinaryOp → String
  | .add => "+"
  | .sub => "-"
  | .mul => "*"
  | .div => "/"

inductive UnaryOp where
  | plus
  | minus
  deriving DecidableEq, Repr

def UnaryOp.symbol : UnaryOp → String
  | .plus => "+"
  | .minus => "-"

/-- The name of the circle constant, which is never a variable. -/
def piName : String := "π"

/-- The functions that every sheet knows. -/
inductive Builtin where
  | sin
  | cos
  | tan
  | sec
  | csc
  | cot
  | sech
  | csch
  | coth
  | pow
  | sqrt
  | root
  deriving DecidableEq, Repr

namespace Builtin

def ofName? : String → Option Builtin
  | "sin" => some .sin
  | "cos" => some .cos
  | "tan" => some .tan
  | "sec" => some .sec
  | "csc" => some .csc
  | "cot" => some .cot
  | "sech" => some .sech
  | "csch" => some .csch
  | "coth" => some .coth
  | "pow" => some .pow
  | "sqrt" => some .sqrt
  | "root" => some .root
  | _ => none

/-- The number of arguments. -/
def arity : Builtin → Nat
  | .pow | .root => 2
  | _ => 1

/-- `builtin_arity`: the number of arguments of the function with a given name. -/
def arityOf? (name : String) : Option Nat := (ofName? name).map arity

end Builtin

/-- `Node`: an expression, or a declaration at the top of one. -/
inductive Formula where
  | number (value : Number)
  /-- A variable, a parameter or the circle constant. -/
  | identifier (name : String)
  | binary (op : BinaryOp) (lhs rhs : Formula)
  | unary (op : UnaryOp) (operand : Formula)
  | call (name : String) (arguments : List Formula)
  /-- A variable is given a value: `name = value`. -/
  | assignment (name : String) (value : Formula)
  /-- A function is given a body: `name(parameters) = body`. -/
  | definition (name : String) (parameters : List String) (body : Formula)
  /-- The formula of an empty group. -/
  | empty
  deriving Repr

namespace Formula

def isEmpty : Formula → Bool
  | .empty => true
  | _ => false

/-- `is_float`: whether a formula is floating point whatever its variables hold: it divides, calls a
function, or has a float or the circle constant in it. -/
def isFloat : Formula → Bool
  | .number (.integer _) => false
  | .number (.float _) => true
  | .identifier name => name = piName
  | .binary op lhs rhs => op = .div || lhs.isFloat || rhs.isFloat
  | .unary _ operand => operand.isFloat
  | .call _ _ => true
  | .assignment _ value => value.isFloat
  | .definition _ _ _ => true
  | .empty => false

/-- `build_multiplication_tree`: the product of factors, associated to the left. Empty factors drop
out, and the product of none is empty. -/
def product (factors : List Formula) : Formula :=
  match factors.filter (!·.isEmpty) with
  | [] => .empty
  | first :: rest => rest.foldl (.binary .mul) first

/-- Whether nothing stands below a formula and it is no call. -/
def isLeaf : Formula → Bool
  | .number _ | .identifier _ | .empty => true
  | _ => false

mutual

/-- `walk_node`: a formula and all formulas below it, each in front of those below it, from left to
right. -/
def preorder : Formula → List Formula
  | .number value => [.number value]
  | .identifier name => [.identifier name]
  | .binary op lhs rhs => .binary op lhs rhs :: (lhs.preorder ++ rhs.preorder)
  | .unary op operand => .unary op operand :: operand.preorder
  | .call name arguments => .call name arguments :: preorderList arguments
  | .assignment name value => .assignment name value :: value.preorder
  | .definition name parameters body => .definition name parameters body :: body.preorder
  | .empty => [.empty]

def preorderList : List Formula → List Formula
  | [] => []
  | formula :: rest => formula.preorder ++ preorderList rest

end

mutual

/-- A formula and all formulas below it, each behind those below it, from left to right. -/
def postorder : Formula → List Formula
  | .number value => [.number value]
  | .identifier name => [.identifier name]
  | .binary op lhs rhs => lhs.postorder ++ rhs.postorder ++ [.binary op lhs rhs]
  | .unary op operand => operand.postorder ++ [.unary op operand]
  | .call name arguments => postorderList arguments ++ [.call name arguments]
  | .assignment name value => value.postorder ++ [.assignment name value]
  | .definition name parameters body => body.postorder ++ [.definition name parameters body]
  | .empty => [.empty]

def postorderList : List Formula → List Formula
  | [] => []
  | formula :: rest => formula.postorder ++ postorderList rest

end

end Formula

/-- A formula on a line of its own. -/
structure Statement where
  body : Formula
  /-- The line of the statement, counted from 1. -/
  line : Option Nat
  deriving Repr

inductive StatementKind where
  | assignment
  | definition
  | expression
  deriving DecidableEq, Repr

def Statement.kind (statement : Statement) : StatementKind :=
  match statement.body with
  | .assignment _ _ => .assignment
  | .definition _ _ _ => .definition
  | _ => .expression

end FormulaSheet
