import FormulaSheet.Bindings
import FormulaSheet.Fault
import FormulaSheet.Formula.Basic
import FormulaSheet.Scope.Naming

/-!
What the names of a sheet stand for at some point of it, and the kinds of numbers that formulas
give there.
-/

namespace FormulaSheet

/-- `NumKind`: whether a value is an integer of 64 bits or floating point. -/
inductive NumberKind where
  | integer
  | float
  deriving DecidableEq, Repr

/-- The kind of a value computed from two others: floating point prevails. -/
def NumberKind.join : NumberKind → NumberKind → NumberKind
  | .integer, .integer => .integer
  | _, _ => .float

/-- What a name stands for. -/
inductive Symbol where
  | variable (field : String) (kind : NumberKind)
  | parameter (name : String)
  | function (name : String) (arity : Nat)
  deriving DecidableEq, Repr

/-- What a name in the place of a value refers to. -/
inductive ValueRef where
  | pi
  /-- A field or a parameter of the generated program. -/
  | bound (name : String)
  /-- Nothing: the value is asked for when the program runs. -/
  | free
  deriving DecidableEq, Repr

/-- What a name in the place of a function refers to. -/
inductive FunctionRef where
  | builtin (function : Builtin)
  | user (name : String)
  deriving DecidableEq, Repr

/-- The names bound so far, and how often each has been bound. -/
structure SymbolTable where
  symbols : Bindings Symbol := {}
  variableGenerations : Bindings Nat := {}
  functionGenerations : Bindings Nat := {}
  deriving Repr

namespace SymbolTable

def get? (table : SymbolTable) (name : String) : Option Symbol := table.symbols.get? name

/-- Whether two tables bind the same names in the same way and have counted the same bindings. -/
def agrees (left right : SymbolTable) : Bool :=
  left.symbols.agrees right.symbols &&
    left.variableGenerations.agrees right.variableGenerations &&
    left.functionGenerations.agrees right.functionGenerations

/-- `next_generation`: the number of the next binding of a name. -/
def nextGeneration (generations : Bindings Nat) (name : String) : Nat :=
  (generations.get? name).getD 0 + 1

/-- `declare_variable`: binds a variable anew: the table behind the binding, and the field that
holds its value. -/
def declareVariable (table : SymbolTable) (naming : Naming) (name : String) (kind : NumberKind) :
    SymbolTable × String :=
  let generation := nextGeneration table.variableGenerations name
  let field := naming.field name generation
  ({ table with
      symbols := table.symbols.insert name (.variable field kind)
      variableGenerations := table.variableGenerations.insert name generation }, field)

/-- `declare_function`: binds a function anew: the table behind the binding, and its name in the
program. -/
def declareFunction (table : SymbolTable) (naming : Naming) (name : String) (arity : Nat) :
    SymbolTable × String :=
  let generation := nextGeneration table.functionGenerations name
  let function := naming.function name generation
  ({ table with
      symbols := table.symbols.insert name (.function function arity)
      functionGenerations := table.functionGenerations.insert name generation }, function)

/-- `enter_function`: the names inside a function: its parameters hide what was bound outside. -/
def enterFunction (table : SymbolTable) (naming : Naming) (parameters : List String) :
    SymbolTable :=
  { table with
    symbols := parameters.foldl
      (fun symbols name => symbols.insert name (.parameter (naming.parameter name))) table.symbols }

@[simp]
theorem get?_declareVariable (table : SymbolTable) (naming : Naming) (name other : String)
    (kind : NumberKind) :
    (table.declareVariable naming name kind).1.get? other =
      if name = other then some (.variable (table.declareVariable naming name kind).2 kind)
      else table.get? other :=
  Bindings.get?_insert ..

@[simp]
theorem get?_declareFunction (table : SymbolTable) (naming : Naming) (name other : String)
    (arity : Nat) :
    (table.declareFunction naming name arity).1.get? other =
      if name = other then some (.function (table.declareFunction naming name arity).2 arity)
      else table.get? other :=
  Bindings.get?_insert ..

/-- Inside a function a name is a parameter, or what it is outside. -/
@[simp]
theorem get?_enterFunction (table : SymbolTable) (naming : Naming) (parameters : List String)
    (name : String) :
    (table.enterFunction naming parameters).get? name =
      if name ∈ parameters then some (.parameter (naming.parameter name)) else table.get? name := by
  obtain ⟨symbols, variableGenerations, functionGenerations⟩ := table
  simp only [get?, enterFunction]
  induction parameters generalizing symbols with
  | nil => simp
  | cons first rest ih =>
    rw [List.foldl_cons, ih, Bindings.get?_insert]
    by_cases inner : name ∈ rest
    · simp [inner]
    · by_cases same : first = name
      · simp [same]
      · have different : name ≠ first := fun eq => same eq.symm
        simp [inner, same, different]

/-- `lookup_value`: the value that a name refers to. -/
def value (table : SymbolTable) (name : String) (line : Option Nat) : Except Fault ValueRef :=
  if name = piName then .ok .pi
  else
    match table.get? name with
    | some (.variable field _) => .ok (.bound field)
    | some (.parameter parameter) => .ok (.bound parameter)
    | some (.function _ _) => .error (.unsupported (.functionAsValue name) line)
    | none => .ok .free

theorem value_eq_pi_iff (table : SymbolTable) (name : String) (line : Option Nat) :
    table.value name line = .ok .pi ↔ name = piName := by
  unfold value
  split
  · simp_all
  · split <;> simp_all

theorem value_eq_bound_iff (table : SymbolTable) (name generated : String) (line : Option Nat) :
    table.value name line = .ok (.bound generated) ↔ name ≠ piName ∧
      ((∃ kind, table.get? name = some (.variable generated kind)) ∨
        table.get? name = some (.parameter generated)) := by
  unfold value
  split
  · simp_all
  · split <;> simp_all

theorem value_eq_free_iff (table : SymbolTable) (name : String) (line : Option Nat) :
    table.value name line = .ok .free ↔ name ≠ piName ∧ table.get? name = none := by
  unfold value
  split
  · simp_all
  · split <;> simp_all

/-- A function together with its arity, if it is called with that many arguments. -/
def checkArity (name : String) (function : FunctionRef) (expected found : Nat)
    (line : Option Nat) : Except Fault FunctionRef :=
  if found = expected then .ok function else .error (.arity name expected found line)

/-- `lookup_function`: the function that a name refers to in a call with `count` arguments. Built-in
functions cannot be hidden. -/
def function (table : SymbolTable) (name : String) (count : Nat) (line : Option Nat) :
    Except Fault FunctionRef :=
  match Builtin.ofName? name with
  | some builtin => checkArity name (.builtin builtin) builtin.arity count line
  | none =>
    match table.get? name with
    | some (.function function arity) => checkArity name (.user function) arity count line
    | some _ => .error (.unsupported (.callOfValue name) line)
    | none => .error (.unknownFunction name line)

theorem function_eq_builtin_iff (table : SymbolTable) (name : String) (count : Nat)
    (line : Option Nat) (builtin : Builtin) :
    table.function name count line = .ok (.builtin builtin) ↔
      Builtin.ofName? name = some builtin ∧ count = builtin.arity := by
  unfold function checkArity
  split
  · rename_i other named
    by_cases fits : count = other.arity
    · by_cases same : other = builtin <;> simp_all
    · by_cases same : other = builtin <;> simp_all
  · split
    · split <;> simp_all
    · simp_all
    · simp_all

theorem function_eq_user_iff (table : SymbolTable) (name generated : String) (count : Nat)
    (line : Option Nat) :
    table.function name count line = .ok (.user generated) ↔
      Builtin.ofName? name = none ∧ table.get? name = some (.function generated count) := by
  unfold function checkArity
  split
  · split <;> simp_all
  · split
    · rename_i named function arity found
      by_cases fits : count = arity
      · simp_all
      · have different : arity ≠ count := fun eq => fits eq.symm
        simp_all
    · simp_all
    · simp_all

/-- `infer`: the kind of a formula's value. Parameters, calls and values that are asked for are
floating point. -/
def kindOf (table : SymbolTable) (formula : Formula) : NumberKind :=
  if formula.isFloat then .float
  else
    match formula with
    | .identifier name =>
      match table.get? name with
      | some (.variable _ kind) => kind
      | _ => .float
    | .binary _ lhs rhs => (table.kindOf lhs).join (table.kindOf rhs)
    | .unary _ operand => table.kindOf operand
    | .assignment _ value => table.kindOf value
    | .call _ _ | .definition _ _ _ => .float
    | .number _ | .empty => .integer

/-- What contains a quotient, a decimal or a call is floating point whatever the names stand for. -/
theorem kindOf_of_isFloat (table : SymbolTable) {formula : Formula} (floats : formula.isFloat) :
    table.kindOf formula = .float := by
  unfold kindOf
  simp [floats]

theorem kindOf_identifier (table : SymbolTable) (different : name ≠ piName) :
    table.kindOf (.identifier name) =
      match table.get? name with
      | some (.variable _ kind) => kind
      | _ => .float := by
  unfold kindOf
  simp only [Formula.isFloat, different, decide_false, Bool.false_eq_true, ↓reduceIte]

theorem kindOf_binary (table : SymbolTable) (op : BinaryOp) (lhs rhs : Formula) :
    table.kindOf (.binary op lhs rhs) =
      if op = .div then .float else (table.kindOf lhs).join (table.kindOf rhs) := by
  by_cases quotient : op = .div
  · rw [if_pos quotient, kindOf_of_isFloat]
    simp [Formula.isFloat, quotient]
  · rw [if_neg quotient]
    by_cases floats : lhs.isFloat ∨ rhs.isFloat
    · have joined : (table.kindOf lhs).join (table.kindOf rhs) = .float := by
        rcases floats with left | right
        · rw [kindOf_of_isFloat table left]
          rfl
        · rw [kindOf_of_isFloat table right]
          cases table.kindOf lhs <;> rfl
      rw [joined, kindOf_of_isFloat]
      simpa [Formula.isFloat, quotient] using floats
    · rw [kindOf]
      simp_all [Formula.isFloat]

theorem kindOf_unary (table : SymbolTable) (op : UnaryOp) (operand : Formula) :
    table.kindOf (.unary op operand) = table.kindOf operand := by
  by_cases floats : operand.isFloat
  · rw [kindOf_of_isFloat table floats, kindOf_of_isFloat]
    exact floats
  · rw [kindOf]
    simp [Formula.isFloat, floats]

end SymbolTable

end FormulaSheet
