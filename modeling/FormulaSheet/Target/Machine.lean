import FormulaSheet.Bindings
import FormulaSheet.Target.Value

/-!
Running a program against lines of input. The fields are set in order, then the main routine
prints its lines. A program whose functions only call functions in front of them nests its calls
no deeper than it has functions; other programs may call in circles, and are stopped at a fixed
depth beyond that.
-/

namespace FormulaSheet.Target

/-- The input still to be read and the output so far. -/
structure Console where
  input : List String
  output : String

/-- A step of a run. A fault keeps the output up to it. -/
abbrev Run (α : Type) := EStateM RunFault Console α

/-- Prints a text. -/
def print (text : String) : Run Unit :=
  modify fun console => { console with output := console.output ++ text }

/-- The number in a line of input: any float, with a point or a comma before the decimals. -/
def enteredNumber? (line : String) : Option Float :=
  Decimal.float? (Decimal.pointed (Text.trim line.toList))

/-- Asks for a value until a line holds a number. -/
def ask (name : String) (output : String) : List String → EStateM.Result RunFault Console Float
  | [] => .error (.noInput name) ⟨[], output ++ name ++ " = "⟩
  | line :: rest =>
    match enteredNumber? line with
    | some value => .ok value ⟨rest, output ++ name ++ " = "⟩
    | none => ask name (output ++ name ++ " = Invalid number, try again.\n") rest

/-- `read_number`: asks for a value on the console. -/
def readNumber (name : String) : Run Float := fun console => ask name console.output console.input

/-- `arg`: an argument as a double; arguments are counted from 0. -/
def argument (arguments : List Value) (index : Nat) : Except RunFault Float :=
  match arguments[index]? with
  | some value => .ok value.toFloat
  | none => .error (.missingArgument (index + 1))

/-- `math`: a function of the mathematical library. -/
def mathValue (function : MathFunction) (arguments : List Value) : Except RunFault Float := do
  let x ← argument arguments 0
  match function with
  | .sin => return x.sin
  | .cos => return x.cos
  | .tan => return x.tan
  | .pow => return x.pow (← argument arguments 1)
  | .sqrt => return x.sqrt

/-- `runtime`: a helper that takes numbers. -/
def helperValue (helper : Helper) (arguments : List Value) : Except RunFault Float := do
  let x ← argument arguments 0
  match helper with
  | .nthRoot => return x.pow (1.0 / (← argument arguments 1))
  | .sec => return 1.0 / x.cos
  | .csc => return 1.0 / x.sin
  | .cot => return 1.0 / x.tan
  | .sech => return 1.0 / x.cosh
  | .csch => return 1.0 / x.sinh
  | .coth => return 1.0 / x.tanh
  | .readNumber => throw .namelessRead

/-- The circle constant. -/
def piValue : Float := 3.141592653589793

mutual

/-- `eval`: the value of an expression, given what the functions of the program do and what fields
and parameters hold. Parameters hide fields. -/
def evalWith (call : String → List Value → Run Value) (fields parameters : Bindings Value) :
    Expr → Run Value
  | .long value => return .long value
  | .double value => return .double value
  | .string text => throw (.stringAsNumber text)
  | .variable name =>
    match parameters.get? name <|> fields.get? name with
    | some value => return value
    | none => throw (.unassigned name)
  | .pi => return .double piValue
  | .binary op lhs rhs => do
    let a ← evalWith call fields parameters lhs
    let b ← evalWith call fields parameters rhs
    liftExcept (a.binary op b)
  | .neg operand => return (← evalWith call fields parameters operand).neg
  | .cast ty operand => return (← evalWith call fields parameters operand).cast ty
  | .call (.helper .readNumber) arguments =>
    match arguments with
    | [.string name] => return .double (← readNumber name)
    | _ => throw .namelessRead
  | .call callee arguments => do
    let values ← evalAllWith call fields parameters arguments
    match callee with
    | .math function => return .double (← liftExcept (mathValue function values))
    | .helper helper => return .double (← liftExcept (helperValue helper values))
    | .user name => call name values

/-- The values of several expressions, from left to right. -/
def evalAllWith (call : String → List Value → Run Value) (fields parameters : Bindings Value) :
    List Expr → Run (List Value)
  | [] => return []
  | first :: rest => do
    let value ← evalWith call fields parameters first
    return value :: (← evalAllWith call fields parameters rest)

end

/-- The parameters of a function with the values they are called with. Of two parameters with one
name the later counts. -/
def bindParameters (parameters : List String) (values : List Value) : Bindings Value :=
  (parameters.zip values).foldl
    (fun bound (name, value) => bound.insert name (value.cast .double)) {}

/-- `call`: calls a function of the program, with at most `depth` calls nested in each other. -/
def callAt (program : Program) (fields : Bindings Value) :
    Nat → String → List Value → Run Value
  | 0, _, _ => throw .callDepth
  | depth + 1, name, values =>
    match program.function? name with
    | none => throw (.undefinedFunction name)
    | some function =>
      if function.parameters.length = values.length then do
        let bound := bindParameters function.parameters values
        let value ← evalWith (callAt program fields depth) fields bound function.body
        return value.cast function.result
      else throw (.argumentCount function.parameters.length values.length)

/-- Sets fields one after the other, each seeing those before it. -/
def setFields (program : Program) (depth : Nat) (known : Bindings Value) :
    List Field → Run (Bindings Value)
  | [] => return known
  | field :: rest => do
    let value ← callAt program known depth field.init []
    setFields program depth (known.insert field.name (value.cast field.ty)) rest

/-- `exec`: performs one step of the main routine. -/
def perform (program : Program) (depth : Nat) (fields : Bindings Value) : Action → Run Unit
  | .line text => print (text ++ "\n")
  | .value label expr => do
    let value ← evalWith (callAt program fields depth) fields {} expr
    match label with
    | some label => print (label ++ " = " ++ value.text ++ "\n")
    | none => print (value.text ++ "\n")

/-- Performs the steps of the main routine in order. -/
def performAll (program : Program) (depth : Nat) (fields : Bindings Value) :
    List Action → Run Unit
  | [] => return ()
  | action :: rest => do
    perform program depth fields action
    performAll program depth fields rest

/-- How deep the calls of a program may nest. -/
def Program.callDepth (program : Program) : Nat := program.functions.length + 10000

/-- `run`: sets the fields and performs the main routine. -/
def Program.execute (program : Program) : Run Unit := do
  let fields ← setFields program program.callDepth {} program.fields
  performAll program program.callDepth fields program.main

/-- What a run has printed, and the fault that ended it, if any. -/
structure Outcome where
  output : String
  fault : Option RunFault
  deriving DecidableEq, Repr

/-- `interpret`: runs a program on lines of input. -/
def Program.run (program : Program) (input : List String) : Outcome :=
  match program.execute ⟨input, ""⟩ with
  | .ok _ console => ⟨console.output, none⟩
  | .error fault console => ⟨console.output, some fault⟩

end FormulaSheet.Target
