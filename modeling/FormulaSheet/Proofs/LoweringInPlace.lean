import FormulaSheet.Proofs.LoweringSteps

/-! Lowering as a sequence of changes to one state: the lists of the program, the table of names and its two
counters are written one after the other, and a fault leaves behind whatever was written before it. Nothing is
written before the last thing that can fail, so a statement is lowered as a whole or not at all. A sheet with
faulty statements is therefore lowered as if these were not there, and a program only grows. -/
namespace FormulaSheet.LoweringInPlace
open Target (Program Expr Ty Action Field Function)
open LoweringSteps Sequencing

/-- A change of the lowering made so far. -/
abbrev Change (α : Type) := EStateM Fault Lowering α

/-! ## Single changes -/

/-- The expression for a formula; nothing is written. -/
def expressionFor (scope : SymbolTable) (line : Option Nat) (formula : Formula) : Change Expr :=
  match formula.lower scope line with
  | .ok expr => pure expr
  | .error fault => throw fault

/-- Binds a variable anew and counts the binding. -/
def bindVariable (naming : Naming) (name : String) (kind : NumberKind) : Change String :=
  modifyGet fun state =>
    let (globals, field) := state.globals.declareVariable naming name kind
    (field, { state with globals })

/-- Binds a function anew and counts the binding. -/
def bindFunction (naming : Naming) (name : String) (arity : Nat) : Change String :=
  modifyGet fun state =>
    let (globals, function) := state.globals.declareFunction naming name arity
    (function, { state with globals })

def addField (field : Field) : Change Unit :=
  modify fun state => { state with program.fields := state.program.fields ++ [field] }

def addFunction (function : Function) : Change Unit :=
  modify fun state => { state with program.functions := state.program.functions ++ [function] }

def addAction (action : Action) : Change Unit :=
  modify fun state => { state with program.main := state.program.main ++ [action] }

/-- Adds the two actions of a statement to the main routine. -/
def print (statement : Statement) (result : Action) : Change Unit := do
  addAction (.line statement.body.text)
  addAction result

/-! ## Statements -/

/-- Writes one statement: what it declares, then its two actions. -/
def perform (naming : Naming) (statement : Statement) : Change Unit := do
  let globals := (← get).globals
  match statement.body with
  | .assignment name value =>
    let body ← expressionFor globals statement.line value
    let ty := Ty.ofKind (globals.kindOf value)
    let field ← bindVariable naming name (globals.kindOf value)
    addField ⟨field, ty, naming.init field⟩
    addFunction ⟨naming.init field, [], ty, body⟩
    print statement (.value (some name) (.variable field))
  | .definition name parameters formula =>
    let body ← expressionFor (globals.enterFunction naming parameters) statement.line formula
    let function ← bindFunction naming name parameters.length
    addFunction ⟨function, parameters.map naming.parameter, .double, body⟩
    print statement (.line (DeclaredLine name parameters))
  | formula =>
    let value ← expressionFor globals statement.line formula
    print statement (.value none value)

/-- Writes the statements of a sheet; the first fault ends it. -/
def performSheet (naming : Naming) : List Statement → Change Unit
  | [] => pure ()
  | first :: rest => do
    perform naming first
    performSheet naming rest

/-- The state that a change leaves, whether it failed or not. -/
def left : EStateM.Result Fault Lowering Unit → Lowering
  | .ok _ state | .error _ state => state

/-- The state behind one call for each statement, whatever became of the calls before it. -/
def performEach (naming : Naming) (state : Lowering) (statements : List Statement) : Lowering :=
  statements.foldl (fun state statement => left (perform naming statement state)) state

/-- The statements whose call succeeds. -/
def succeeding (naming : Naming) (state : Lowering) : List Statement → List Statement
  | [] => []
  | first :: rest =>
    match perform naming first state with
    | .ok _ next => first :: succeeding naming next rest
    | .error _ next => succeeding naming next rest

/-- What one statement adds to the three lists: a field with the function for its first value, a function, or
neither, and the action that prints its result. -/
inductive Adds (statement : Statement) : List Field → List Function → Action → Prop where
  | assignment (shape : statement.body = .assignment name value) (field : Field) (body : Expr) :
      Adds statement [field] [⟨field.init, [], field.ty, body⟩] (.value (some name) (.variable field.name))
  | definition (shape : statement.body = .definition name parameters formula) (function : Function) :
      Adds statement [] [function] (.line (DeclaredLine name parameters))
  | expression (kind : statement.kind = .expression) (value : Expr) :
      Adds statement [] [] (.value none value)

section Changes

variable {naming : Naming} {statement : Statement} {state before after : Lowering}

theorem print_eq (statement : Statement) (result : Action) (state : Lowering) :
    print statement result state =
      .ok () { state with program := Lowering.printed state.program statement result } := by
  change EStateM.Result.ok () _ = _
  simp [Lowering.printed]

/-- Changes that cannot fail, behind a formula that may: they are all made or none is. -/
theorem all_or_nothing {changes : Expr → Change Unit} {finish : Expr → Lowering}
    (total : ∀ expr, changes expr state = .ok () (finish expr)) (scope : SymbolTable) (line : Option Nat)
    (formula : Formula) :
    (expressionFor scope line formula >>= changes) state =
      match formula.lower scope line >>= fun expr => pure (finish expr) with
      | .ok next => .ok () next
      | .error fault => .error fault state := by
  unfold expressionFor
  cases formula.lower scope line with
  | error fault => rfl
  | ok expr => exact total expr

/-- A statement is written as it is lowered, and one that cannot be lowered is not written at all. -/
theorem perform_eq (naming : Naming) (statement : Statement) (state : Lowering) :
    perform naming statement state =
      match state.statement naming statement with
      | .ok next => .ok () next
      | .error fault => .error fault state := by
  obtain ⟨body, line⟩ := statement
  cases body with
  | assignment name value =>
    refine all_or_nothing ?_ state.globals line value
    exact fun expr => print_eq ..
  | definition name parameters formula =>
    refine all_or_nothing ?_ (state.globals.enterFunction naming parameters) line formula
    exact fun expr => print_eq ..
  | empty => rfl
  | _ =>
    refine all_or_nothing ?_ state.globals line _
    exact fun expr => print_eq ..

private theorem perform_error (failed : perform naming statement before = .error fault after) :
    before.statement naming statement = .error fault ∧ after = before := by
  rw [perform_eq] at failed
  split at failed
  · cases failed
  · rename_i refused
    cases failed
    exact ⟨refused, rfl⟩

private theorem perform_ok (ran : perform naming statement before = .ok () after) :
    before.statement naming statement = .ok after := by
  rw [perform_eq] at ran
  split at ran
  · rename_i lowered
    cases ran
    exact lowered
  · cases ran

/-- A statement that is lowered adds to the ends of the three lists. -/
theorem statement_adds (lowered : before.statement naming statement = .ok after) :
    ∃ fields functions result, Adds statement fields functions result ∧
      after.program = Appended before.program fields functions [.line statement.body.text, result] := by
  obtain ⟨expr, step⟩ := step_of_ok lowered
  cases step with
  | assignment shape inner => exact ⟨_, _, _, .assignment shape (FieldOf ..) expr, rfl⟩
  | definition shape inner => exact ⟨_, _, _, .definition shape (FunctionOf ..), rfl⟩
  | expression inner =>
    obtain ⟨notAssignment, notDefinition⟩ := lowered_not_declaration inner
    have kind : statement.kind = .expression := by
      unfold Statement.kind
      split
      · rename_i shape
        exact absurd shape (notAssignment _ _)
      · rename_i shape
        exact absurd shape (notDefinition _ _ _)
      · rfl
    exact ⟨_, _, _, .expression kind expr, rfl⟩

/-! ## Sheets -/

/-- A call leaves a program that goes on where the one before it ended. -/
theorem left_perform (naming : Naming) (statement : Statement) (state : Lowering) :
    ∃ fields functions main,
      (left (perform naming statement state)).program = Appended state.program fields functions main := by
  cases ran : perform naming statement state with
  | error fault next =>
    obtain ⟨-, rfl⟩ := perform_error ran
    exact ⟨[], [], [], appended_nothing.symm⟩
  | ok done next =>
    obtain ⟨fields, functions, result, -, added⟩ := statement_adds (perform_ok ran)
    exact ⟨fields, functions, _, added⟩

private theorem performSheet_cons (naming : Naming) (first : Statement) (rest : List Statement) (state : Lowering) :
    performSheet naming (first :: rest) state =
      match perform naming first state with
      | .ok _ next => performSheet naming rest next
      | .error fault next => .error fault next := by
  rw [performSheet]
  cases ran : perform naming first state with
  | ok done next => exact bind_of_ok ran
  | error fault next => exact bind_of_error ran

private theorem left_performSheet (naming : Naming) (statements : List Statement) (state : Lowering) :
    ∃ fields functions main,
      (left (performSheet naming statements state)).program = Appended state.program fields functions main := by
  induction statements generalizing state with
  | nil => exact ⟨[], [], [], appended_nothing.symm⟩
  | cons first rest ih =>
    obtain ⟨fields, functions, main, added⟩ := left_perform naming first state
    rw [performSheet_cons]
    cases ran : perform naming first state with
    | error fault next =>
      rw [ran] at added
      exact ⟨fields, functions, main, added⟩
    | ok done next =>
      rw [ran] at added
      obtain ⟨moreFields, moreFunctions, moreMain, addedLater⟩ := ih next
      rw [show next.program = _ from added, appended_twice] at addedLater
      exact ⟨_, _, _, addedLater⟩

private theorem performSheet_append (naming : Naming) (first later : List Statement) (state : Lowering) :
    ∃ fields functions main, (left (performSheet naming (first ++ later) state)).program =
      Appended (left (performSheet naming first state)).program fields functions main := by
  induction first generalizing state with
  | nil => exact left_performSheet naming later state
  | cons statement rest ih =>
    rw [List.cons_append, performSheet_cons, performSheet_cons]
    cases perform naming statement state with
    | error fault next => exact ⟨[], [], [], appended_nothing.symm⟩
    | ok done next => exact ih next

private theorem statements_of_performSheet (ran : performSheet naming statements before = .ok () after) :
    before.statements naming statements = .ok after := by
  induction statements generalizing before with
  | nil =>
    cases ran
    rfl
  | cons first rest ih =>
    rw [performSheet_cons] at ran
    split at ran
    · rename_i next performed
      rw [Lowering.statements, perform_ok performed]
      exact ih ran
    · cases ran

/-- Calls that fail leave nothing behind, so the others are written as a sheet of their own. -/
theorem performSheet_succeeding (naming : Naming) (statements : List Statement) (state : Lowering) :
    (succeeding naming state statements).Sublist statements ∧
      performSheet naming (succeeding naming state statements) state =
        .ok () (performEach naming state statements) := by
  induction statements generalizing state with
  | nil => exact ⟨.slnil, rfl⟩
  | cons first rest ih =>
    rw [succeeding, performEach, List.foldl_cons, ← performEach]
    cases ran : perform naming first state with
    | ok done next =>
      obtain ⟨kept, written⟩ := ih next
      refine ⟨kept.cons_cons first, ?_⟩
      dsimp only
      rw [performSheet_cons, ran]
      exact written
    | error fault next =>
      obtain ⟨-, rfl⟩ := perform_error ran
      obtain ⟨kept, written⟩ := ih next
      exact ⟨kept.cons first, written⟩

end Changes

/-- **Lowering is all or nothing, and only appends.** From whatever state: a statement that fails leaves the program,
the names and their counters as they were. A statement that succeeds adds its text and its result to the main routine,
a field with its function for an assignment, a function for a definition, and nothing else. So one call for each
statement of a list ends where the sheet of those that succeed ends, and the program of the first statements of a
sheet is continued by the program of the whole. -/
theorem lowering_is_all_or_nothing (naming : Naming) (state : Lowering) :
    (∀ statement fault after, perform naming statement state = .error fault after →
      state.statement naming statement = .error fault ∧ after = state) ∧
    (∀ statement after, perform naming statement state = .ok () after →
      state.statement naming statement = .ok after ∧
      ∃ fields functions result, Adds statement fields functions result ∧
        after.program = Appended state.program fields functions [.line statement.body.text, result]) ∧
    (∀ statements, (succeeding naming state statements).Sublist statements ∧
      performSheet naming (succeeding naming state statements) state =
        .ok () (performEach naming state statements) ∧
      state.statements naming (succeeding naming state statements) =
        .ok (performEach naming state statements)) ∧
    (∀ first later, ∃ fields functions main,
      (left (performSheet naming (first ++ later) state)).program =
        Appended (left (performSheet naming first state)).program fields functions main) := by
  refine ⟨fun _ _ _ => perform_error, fun statement after ran => ?_, fun statements => ?_, fun first later => ?_⟩
  · have lowered := perform_ok ran
    exact ⟨lowered, statement_adds lowered⟩
  · obtain ⟨kept, written⟩ := performSheet_succeeding naming statements state
    exact ⟨kept, written, statements_of_performSheet written⟩
  · exact performSheet_append naming first later state

/-- A sheet that binds `x` twice and fails in between, where an operand is missing behind a use of `x`. -/
theorem missing_operand_leaves_no_trace :
    let bound : Statement := ⟨.assignment "x" (.number (.integer 1)), some 1⟩
    let faulty : Statement := ⟨.assignment "x" (.binary .add (.identifier "x") .empty), some 2⟩
    let rebound : Statement := ⟨.assignment "x" (.unary .minus (.identifier "x")), some 3⟩
    let state := performEach {} (start "Sheet" "Program") [bound]
    (∃ fault, perform {} faulty state = .error fault state) ∧
      Lowering.statements {} (start "Sheet" "Program") [bound, rebound] =
        .ok (performEach {} (start "Sheet" "Program") [bound, faulty, rebound]) := by
  intro bound faulty rebound state
  have failed : ∃ fault after, perform {} faulty state = .error fault after := ⟨_, _, rfl⟩
  obtain ⟨fault, after, failed⟩ := failed
  have same : after = state := ((lowering_is_all_or_nothing {} state).1 faulty fault after failed).2
  refine ⟨⟨fault, same ▸ failed⟩, ?_⟩
  exact ((lowering_is_all_or_nothing {} (start "Sheet" "Program")).2.2.1 [bound, faulty, rebound]).2.2

end FormulaSheet.LoweringInPlace
