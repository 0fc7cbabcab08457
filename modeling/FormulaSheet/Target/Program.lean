import FormulaSheet.Formula.Basic

/-!
Programs of a small imperative language with static types: one class with fields, functions whose
body is a single expression, helper functions, and a main routine that prints lines.
-/

namespace FormulaSheet.Target

inductive Ty where
  /-- An integer of 64 bits. -/
  | long
  | double
  deriving DecidableEq, Repr

/-- The functions of the target's mathematical library. -/
inductive MathFunction where
  | sin
  | cos
  | tan
  | pow
  | sqrt
  deriving DecidableEq, Repr

def MathFunction.name : MathFunction → String
  | .sin => "Sin"
  | .cos => "Cos"
  | .tan => "Tan"
  | .pow => "Pow"
  | .sqrt => "Sqrt"

/-- The functions that a program brings along. -/
inductive Helper where
  | nthRoot
  /-- Asks for a value by its name until a number is entered. -/
  | readNumber
  | sec
  | csc
  | cot
  | sech
  | csch
  | coth
  deriving DecidableEq, Repr

namespace Helper

/-- All helpers, in the order in which they are written. -/
def all : List Helper := [.nthRoot, .readNumber, .sec, .csc, .cot, .sech, .csch, .coth]

def name : Helper → String
  | .nthRoot => "NthRoot"
  | .readNumber => "ReadNumber"
  | .sec => "Sec"
  | .csc => "Csc"
  | .cot => "Cot"
  | .sech => "Sech"
  | .csch => "Csch"
  | .coth => "Coth"

/-- `reciprocal_of`: the library function of which a helper is the reciprocal. -/
def reciprocalOf? : Helper → Option String
  | .sec => some "Cos"
  | .csc => some "Sin"
  | .cot => some "Tan"
  | .sech => some "Cosh"
  | .csch => some "Sinh"
  | .coth => some "Tanh"
  | .nthRoot | .readNumber => none

end Helper

inductive Callee where
  | math (function : MathFunction)
  | helper (helper : Helper)
  /-- A function of the program. -/
  | user (name : String)
  deriving DecidableEq, Repr

inductive Expr where
  | long (value : Int64)
  | double (value : Float)
  | string (text : String)
  /-- A field or a parameter. -/
  | variable (name : String)
  | pi
  | binary (op : BinaryOp) (lhs rhs : Expr)
  | neg (operand : Expr)
  | cast (ty : Ty) (operand : Expr)
  | call (callee : Callee) (arguments : List Expr)
  deriving Repr

/-- `Stmt`: a step of the main routine. -/
inductive Action where
  /-- Prints a text. -/
  | line (text : String)
  /-- Prints a value, behind its label if it has one. -/
  | value (label : Option String) (value : Expr)
  deriving Repr

/-- A field, set once before the main routine. -/
structure Field where
  name : String
  ty : Ty
  /-- The function without parameters that computes the value. -/
  init : String
  deriving DecidableEq, Repr

/-- A function of the program. All parameters are doubles. -/
structure Function where
  name : String
  parameters : List String
  result : Ty
  body : Expr
  deriving Repr

/-- `Unit`: fields, functions and the main routine. -/
structure Program where
  namespaceName : String := "TranspiledMML"
  className : String := "Program"
  /-- In the order in which they are set. -/
  fields : List Field := []
  functions : List Function := []
  helpers : List Helper := Helper.all
  main : List Action := []
  deriving Repr

namespace Program

/-- `function`: the first function with a given name. -/
def function? (program : Program) (name : String) : Option Function :=
  program.functions.find? (·.name = name)

/-- `field`: the first field with a given name. -/
def field? (program : Program) (name : String) : Option Field :=
  program.fields.find? (·.name = name)

end Program

end FormulaSheet.Target
