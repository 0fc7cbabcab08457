import FormulaSheet.Formula.Printer
import FormulaSheet.Target.Machine

/-! What a sheet means by itself, without names of fields and functions and without a program. A
sheet runs in two phases. The first goes through the statements and computes what is assigned, each
name standing for its newest binding; a function keeps the environment in which it was defined. The
second goes through the statements again and prints. Nothing here is taken from the machine that runs
programs but its values, its faults and its console: arithmetic, what is shown of a value, and how a
number is asked for and read are written down anew. -/
namespace FormulaSheet.SheetSemantics
open Target (Value Run Outcome)

/-! ## Arithmetic -/

/-- A value as a double. -/
def double : Value → Float
  | .long a => a.toFloat
  | .double a => a

/-- A value as it is shown. -/
def shown : Value → String
  | .long a => Decimal.integerText a.toInt
  | .double a => Decimal.printed.text a

/-- The value of the built-in function with a given name, for as many numbers as it takes. -/
def builtinValue? : String → List Float → Option Float
  | "sin", [x] => some x.sin
  | "cos", [x] => some x.cos
  | "tan", [x] => some x.tan
  | "sec", [x] => some (1.0 / x.cos)
  | "csc", [x] => some (1.0 / x.sin)
  | "cot", [x] => some (1.0 / x.tan)
  | "sech", [x] => some (1.0 / x.cosh)
  | "csch", [x] => some (1.0 / x.sinh)
  | "coth", [x] => some (1.0 / x.tanh)
  | "pow", [x, y] => some (x.pow y)
  | "sqrt", [x] => some x.sqrt
  | "root", [x, n] => some (x.pow (1.0 / n))
  | _, _ => none

/-- Two longs give the long that is congruent to their exact sum, difference or product modulo
`2 ^ 64`. A quotient is always one of doubles. -/
def arithmetic : BinaryOp → Value → Value → Value
  | .add, .long a, .long b => .long (Int64.ofInt (a.toInt + b.toInt))
  | .sub, .long a, .long b => .long (Int64.ofInt (a.toInt - b.toInt))
  | .mul, .long a, .long b => .long (Int64.ofInt (a.toInt * b.toInt))
  | .add, a, b => .double (double a + double b)
  | .sub, a, b => .double (double a - double b)
  | .mul, a, b => .double (double a * double b)
  | .div, a, b => .double (double a / double b)

def negation : Value → Value
  | .long a => .long (Int64.ofInt (-a.toInt))
  | .double a => .double (-a)

/-! ## The console -/

/-- The output grows by a text. -/
def say (text : String) : Run Unit := fun console => .ok () ⟨console.input, console.output ++ text⟩

/-- The number that a line of input spells. Blanks around it do not count, and a comma stands for a
point. -/
def numberIn? (line : String) : Option Float :=
  let behind := line.toList.dropWhile Text.isBlank
  let between := (behind.reverse.dropWhile Text.isBlank).reverse
  Decimal.float? (between.map fun c => if c = ',' then '.' else c)

/-- The number that is entered for a name: that of the first line of input that spells one. The name is
prompted for in front of every line that is taken, and once more where the input ends; each line without
a number is refused with a notice. -/
def entered (name : String) : Run Float := fun console =>
  let refused := console.input.findIdx fun line => (numberIn? line).isSome
  let notices := String.join (List.replicate refused (name ++ " = Invalid number, try again.\n"))
  let output := console.output ++ notices ++ name ++ " = "
  match console.input.findSome? numberIn? with
  | some number => .ok number ⟨console.input.drop (refused + 1), output⟩
  | none => .error (.noInput name) ⟨[], output⟩

/-! ## Formulas -/

/-- What a name stands for: a number, or what a function does with its arguments. -/
inductive Meaning where
  | number (value : Value)
  | function (apply : List Value → Run Value)

/-- The bound names. -/
abbrev Env := String → Option Meaning

def Env.empty : Env := fun _ => none

/-- A name bound anew. -/
def Env.bind (env : Env) (name : String) (meaning : Meaning) : Env :=
  fun other => if name = other then some meaning else env other

/-- The parameters of a function bound to its arguments as doubles. -/
def Env.bindAll (env : Env) (parameters : List String) (arguments : List Value) : Env :=
  (parameters.zip arguments).foldl
    (fun inner (name, value) => inner.bind name (.number (.double (double value)))) env

mutual

/-- The value of a formula. A name that is not bound is asked for whenever it is used. A formula
without a value, and a name in the wrong place, is a fault. -/
def eval (env : Env) : Formula → Run Value
  | .number (.integer value) => return .long value
  | .number (.float value) => return .double value
  | .identifier name =>
    if name = piName then return .double 3.141592653589793
    else
      match env name with
      | some (.number value) => return value
      | some (.function _) => throw (.unassigned name)
      | none => return .double (← entered name)
  | .binary op lhs rhs => do
    let a ← eval env lhs
    let b ← eval env rhs
    return arithmetic op a b
  | .unary .plus operand => eval env operand
  | .unary .minus operand => return negation (← eval env operand)
  | .call name arguments => do
    let values ← evalAll env arguments
    match builtinValue? name (values.map double) with
    | some number => return .double number
    | none =>
      match env name with
      | some (.function apply) => apply values
      | _ => throw (.undefinedFunction name)
  | .assignment name value => throw (.stringAsNumber (Formula.assignment name value).text)
  | .definition name parameters body =>
    throw (.stringAsNumber (Formula.definition name parameters body).text)
  | .empty => throw (.stringAsNumber "")

/-- The values of several formulas, from left to right. -/
def evalAll (env : Env) : List Formula → Run (List Value)
  | [] => return []
  | first :: rest => do
    let value ← eval env first
    return value :: (← evalAll env rest)

end

/-- A function that keeps the environment of its definition. Its result is a double. -/
def Env.closure (env : Env) (parameters : List String) (body : Formula)
    (arguments : List Value) : Run Value := do
  if parameters.length = arguments.length then
    return .double (double (← eval (env.bindAll parameters arguments) body))
  else throw (.argumentCount parameters.length arguments.length)

/-! ## Sheets -/

/-- What the first phase leaves to be printed for a statement. -/
inductive Entry where
  | assigned (name : String) (value : Value)
  | declared (name : String) (parameters : List String)
  /-- A formula to be computed when it is printed. -/
  | pending (env : Env) (formula : Formula)

/-- The first phase: computes what is assigned, and keeps the text of each statement. -/
def settle (env : Env) : List Statement → Run (List (String × Entry))
  | [] => return []
  | statement :: rest =>
    match statement.body with
    | .assignment name formula => do
      let value ← eval env formula
      let entries ← settle (env.bind name (.number value)) rest
      return (statement.body.text, .assigned name value) :: entries
    | .definition name parameters body => do
      let entries ← settle (env.bind name (.function (env.closure parameters body))) rest
      return (statement.body.text, .declared name parameters) :: entries
    | formula => do
      let entries ← settle env rest
      return (statement.body.text, .pending env formula) :: entries

theorem settle_assignment {statement : Statement} (shape : statement.body = .assignment name formula) :
    settle env (statement :: rest) = (do
      let value ← eval env formula
      let entries ← settle (env.bind name (.number value)) rest
      return (statement.body.text, .assigned name value) :: entries) := by
  rw [settle, shape]

theorem settle_definition {statement : Statement}
    (shape : statement.body = .definition name parameters body) :
    settle env (statement :: rest) = (do
      let entries ← settle (env.bind name (.function (env.closure parameters body))) rest
      return (statement.body.text, .declared name parameters) :: entries) := by
  rw [settle, shape]

theorem settle_expression {statement : Statement}
    (noAssignment : ∀ name value, statement.body ≠ .assignment name value)
    (noDefinition : ∀ name parameters body, statement.body ≠ .definition name parameters body) :
    settle env (statement :: rest) = (do
      let entries ← settle env rest
      return (statement.body.text, .pending env statement.body) :: entries) := by
  rw [settle]
  split
  · rename_i name value shape
    exact absurd shape (noAssignment name value)
  · rename_i name parameters body shape
    exact absurd shape (noDefinition name parameters body)
  · rfl

/-- Prints the result of a statement. -/
def report : Entry → Run Unit
  | .assigned name value => say (name ++ " = " ++ shown value ++ "\n")
  | .declared name parameters =>
    say (name ++ "(" ++ String.intercalate ", " parameters ++ ") declared" ++ "\n")
  | .pending env formula => do say (shown (← eval env formula) ++ "\n")

/-- The second phase: prints the text and the result of each statement. -/
def reportAll : List (String × Entry) → Run Unit
  | [] => return ()
  | (text, entry) :: rest => do
    say (text ++ "\n")
    report entry
    reportAll rest

/-- Both phases. -/
def execute (statements : List Statement) : Run Unit := do
  reportAll (← settle Env.empty statements)

/-- What a sheet prints on lines of input, and the fault that ends it, if any. -/
def outcome (statements : List Statement) (input : List String) : Outcome :=
  match execute statements ⟨input, ""⟩ with
  | .ok _ console => ⟨console.output, none⟩
  | .error fault console => ⟨console.output, some fault⟩

end FormulaSheet.SheetSemantics
