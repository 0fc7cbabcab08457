import FormulaSheet.Scope.Table

/-!
Resolution of names over a whole sheet: which names are asked for when the program runs, what is
bound at the end, and the first name that cannot be used as it is. The statement with that name is
still finished; the statements behind it are not looked at.
-/

namespace FormulaSheet

/-- `Resolver`: the state of resolving a sheet. -/
structure Resolution where
  globals : SymbolTable := {}
  /-- The names without a value, in the order of their first use. -/
  freeVariables : List String := []
  fault : Option Fault := none

namespace Resolution

/-- `report`: keeps the first fault. -/
def fail (state : Resolution) (fault : Fault) : Resolution :=
  { state with fault := state.fault <|> some fault }

/-- Notes a name without a value, once. -/
def noteFree (state : Resolution) (name : String) : Resolution :=
  if name ∈ state.freeVariables then state
  else { state with freeVariables := state.freeVariables ++ [name] }

/-- `visit_node`: looks up the name at the top of a formula. -/
def inspect (scope : SymbolTable) (line : Option Nat) (state : Resolution) (formula : Formula) :
    Resolution :=
  match formula with
  | .identifier name =>
    match scope.value name line with
    | .ok .free => state.noteFree name
    | .ok _ => state
    | .error fault => state.fail fault
  | .call name arguments =>
    match scope.function name arguments.length line with
    | .ok _ => state
    | .error fault => state.fail fault
  | _ => state

/-- Looks up all names of a formula, arguments before the call they belong to. -/
def visit (scope : SymbolTable) (line : Option Nat) (formula : Formula) (state : Resolution) :
    Resolution :=
  formula.postorder.foldl (inspect scope line) state

/-- `visit_statement`: resolves one statement and binds what it declares. A function is bound behind
its body, so it cannot call itself. -/
def statement (naming : Naming) (state : Resolution) (statement : Statement) : Resolution :=
  if state.fault.isSome then state
  else
    match statement.body with
    | .assignment name value =>
      let visited := state.visit state.globals statement.line value
      let kind := state.globals.kindOf value
      { visited with globals := (state.globals.declareVariable naming name kind).1 }
    | .definition name parameters body =>
      let scope := state.globals.enterFunction naming parameters
      let visited := state.visit scope statement.line body
      { visited with
        globals := (state.globals.declareFunction naming name parameters.length).1 }
    | body => state.visit state.globals statement.line body

/-- `resolve_program`: resolves the statements of a sheet in order. -/
def ofStatements (naming : Naming) (statements : List Statement) : Resolution :=
  statements.foldl (statement naming) {}

end Resolution

end FormulaSheet
