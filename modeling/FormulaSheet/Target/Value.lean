import FormulaSheet.Target.Program

/-!
Values of running programs and their arithmetic. Two longs give a long and wrap around; with a
double among them, values are doubles.
-/

namespace FormulaSheet.Target

/-- What can stop a running program. -/
inductive RunFault where
  | divisionByZero
  | overflow
  | stringAsNumber (text : String)
  | unassigned (name : String)
  | namelessRead
  | undefinedFunction (name : String)
  | argumentCount (expected found : Nat)
  /-- An argument of a library function is missing; they are counted from 1. -/
  | missingArgument (position : Nat)
  | noInput (name : String)
  | callDepth
  deriving DecidableEq, Repr

def RunFault.message : RunFault → String
  | .divisionByZero => "Attempted to divide by zero."
  | .overflow => "Arithmetic operation resulted in an overflow."
  | .stringAsNumber text => s!"String \"{text}\" used as a number."
  | .unassigned name => s!"Use of unassigned variable `{name}`."
  | .namelessRead => "ReadNumber expects a name."
  | .undefinedFunction name => s!"Function `{name}` is not defined."
  | .argumentCount expected found => s!"Expected {expected} arguments, received {found}."
  | .missingArgument position => s!"Missing argument {position}."
  | .noInput name => s!"No input for {name}."
  | .callDepth => "Calls are nested too deeply."

inductive Value where
  | long (value : Int64)
  | double (value : Float)
  deriving DecidableEq, Repr

namespace Value

/-- `as_f64`: the value as a double. -/
def toFloat : Value → Float
  | .long value => value.toFloat
  | .double value => value

/-- Conversion to a type. A double becomes the long towards zero; what is out of range becomes the
nearest end of the range, and NaN becomes 0. -/
def cast : Value → Ty → Value
  | .long value, .double => .double value.toFloat
  | .double value, .long => .long value.toInt64
  | value, _ => value

def neg : Value → Value
  | .long value => .long (-value)
  | .double value => .double (-value)

/-- Arithmetic on longs wraps around. Division goes towards zero; its only result out of range is an
overflow. -/
def longBinary (op : BinaryOp) (a b : Int64) : Except RunFault Int64 :=
  match op with
  | .add => .ok (a + b)
  | .sub => .ok (a - b)
  | .mul => .ok (a * b)
  | .div =>
    if b = 0 then .error .divisionByZero
    else if a = Int64.minValue ∧ b = -1 then .error .overflow
    else .ok (a / b)

def doubleBinary (op : BinaryOp) (a b : Float) : Float :=
  match op with
  | .add => a + b
  | .sub => a - b
  | .mul => a * b
  | .div => a / b

/-- Arithmetic on values. -/
def binary (op : BinaryOp) : Value → Value → Except RunFault Value
  | .long a, .long b => (longBinary op a b).map .long
  | a, b => .ok (.double (doubleBinary op a.toFloat b.toFloat))

/-- `fmt`: a value as it is printed. -/
def text : Value → String
  | .long value => Decimal.integerText value.toInt
  | .double value => Decimal.printed.text value

end Value

end FormulaSheet.Target
