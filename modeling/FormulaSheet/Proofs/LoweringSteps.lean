import Mathlib.Data.List.Forall2
import FormulaSheet.Lowering
import FormulaSheet.Proofs.Sequencing

/-! Lowering as a relation. `Lowers` has one rule for each formula with a value, `Step` one for each
kind of statement, and `Steps` follows the statements of a sheet. Whatever is proved about lowered
programs goes by induction on these and does not open the functions again. -/
namespace FormulaSheet.LoweringSteps
open Target (Program Expr Callee Ty Action Field Function)
open Sequencing

/-- Formulas and the expressions they become. A declaration and an empty group become none. -/
inductive Lowers (scope : SymbolTable) (line : Option Nat) : Formula → Expr → Prop where
  | integer (value : Int64) : Lowers scope line (.number (.integer value)) (.long value)
  | float (value : Float) : Lowers scope line (.number (.float value)) (.double value)
  | identifier (found : scope.value name line = .ok ref) :
      Lowers scope line (.identifier name) (ref.expr name)
  | binary (op : BinaryOp) (left : Lowers scope line lhs a) (right : Lowers scope line rhs b) :
      Lowers scope line (.binary op lhs rhs) (op.lower a b)
  | plus (inner : Lowers scope line operand expr) :
      Lowers scope line (.unary .plus operand) expr
  | minus (inner : Lowers scope line operand expr) :
      Lowers scope line (.unary .minus operand) (.neg expr)
  | call {arguments : List Formula} {exprs : List Expr}
      (found : scope.function name arguments.length line = .ok function)
      (paired : arguments.length = exprs.length)
      (each : ∀ {argument expr}, (argument, expr) ∈ arguments.zip exprs →
        Lowers scope line argument expr) :
      Lowers scope line (.call name arguments) (.call function.callee exprs)

/-- A formula that is lowered is no declaration. -/
theorem lowered_not_declaration (lowered : Lowers scope line formula expr) :
    (∀ name value, formula ≠ .assignment name value) ∧
      ∀ name parameters body, formula ≠ .definition name parameters body := by
  cases lowered <;> simp

mutual

/-- A formula that is lowered is lowered by the rules. -/
theorem lowers_of_ok (formula : Formula) (expr : Expr)
    (lowered : formula.lower scope line = .ok expr) : Lowers scope line formula expr := by
  cases formula with
  | number value =>
    cases value with
    | integer value => cases lowered; exact .integer value
    | float value => cases lowered; exact .float value
  | identifier name =>
    rw [Formula.lower] at lowered
    obtain ⟨ref, found, rest⟩ := except_bind_ok lowered
    cases rest
    exact .identifier found
  | binary op lhs rhs =>
    rw [Formula.lower] at lowered
    obtain ⟨a, left, rest⟩ := except_bind_ok lowered
    obtain ⟨b, right, rest⟩ := except_bind_ok rest
    cases rest
    exact .binary op (lowers_of_ok lhs a left) (lowers_of_ok rhs b right)
  | unary op operand =>
    cases op with
    | plus =>
      rw [Formula.lower] at lowered
      exact .plus (lowers_of_ok operand expr lowered)
    | minus =>
      rw [Formula.lower] at lowered
      obtain ⟨inner, loweredInner, rest⟩ := except_bind_ok lowered
      cases rest
      exact .minus (lowers_of_ok operand inner loweredInner)
  | call name arguments =>
    rw [Formula.lower] at lowered
    obtain ⟨function, found, rest⟩ := except_bind_ok lowered
    obtain ⟨exprs, loweredAll, rest⟩ := except_bind_ok rest
    cases rest
    obtain ⟨paired, each⟩ := List.forall₂_iff_zip.mp (all_lower_of_ok arguments exprs loweredAll)
    exact .call found paired each
  | assignment name value => cases lowered
  | definition name parameters body => cases lowered
  | empty => cases lowered

private theorem all_lower_of_ok (formulas : List Formula) (exprs : List Expr)
    (lowered : Formula.lowerAll scope line formulas = .ok exprs) :
    List.Forall₂ (Lowers scope line) formulas exprs := by
  cases formulas with
  | nil => cases lowered; exact .nil
  | cons formula rest =>
    rw [Formula.lowerAll] at lowered
    obtain ⟨first, loweredFirst, tail⟩ := except_bind_ok lowered
    obtain ⟨others, loweredOthers, tail⟩ := except_bind_ok tail
    cases tail
    exact .cons (lowers_of_ok formula first loweredFirst) (all_lower_of_ok rest others loweredOthers)

end

/-- A program with more fields, functions and steps of the main routine behind its own. -/
def Appended (program : Program) (fields : List Field) (functions : List Function)
    (main : List Action) : Program :=
  { program with
    fields := program.fields ++ fields
    functions := program.functions ++ functions
    main := program.main ++ main }

@[simp]
theorem appended_nothing : Appended program [] [] [] = program := by simp [Appended]

@[simp]
theorem appended_twice :
    Appended (Appended program fields functions actions) fields' functions' actions' =
      Appended program (fields ++ fields') (functions ++ functions') (actions ++ actions') := by
  simp [Appended]

/-- The function that computes the first value of an assigned field. -/
def InitOf (naming : Naming) (globals : SymbolTable) (name : String) (value : Formula)
    (body : Expr) : Function :=
  ⟨naming.init (globals.declareVariable naming name (globals.kindOf value)).2, [],
    Ty.ofKind (globals.kindOf value), body⟩

/-- The field of an assignment. -/
def FieldOf (naming : Naming) (globals : SymbolTable) (name : String) (value : Formula) : Field :=
  ⟨(globals.declareVariable naming name (globals.kindOf value)).2, Ty.ofKind (globals.kindOf value),
    naming.init (globals.declareVariable naming name (globals.kindOf value)).2⟩

/-- The function of a definition. -/
def FunctionOf (naming : Naming) (globals : SymbolTable) (name : String) (parameters : List String)
    (body : Expr) : Function :=
  ⟨(globals.declareFunction naming name parameters.length).2, parameters.map naming.parameter,
    .double, body⟩

/-- The line that is printed for a definition. -/
def DeclaredLine (name : String) (parameters : List String) : String :=
  name ++ "(" ++ String.intercalate ", " parameters ++ ") declared"

/-- Nothing lowered yet: a program with its headings only, and no name bound. -/
def start (namespaceName className : String) : Lowering :=
  ⟨{ namespaceName := namespaceName, className := className }, {}⟩

/-- What one lowered statement adds to the program and to the names bound in it, and the expression
that its formula becomes. -/
inductive Step (naming : Naming) (before : Lowering) (statement : Statement) :
    Expr → Lowering → Prop where
  | assignment (shape : statement.body = .assignment name value)
      (lowered : Lowers before.globals statement.line value body) :
      Step naming before statement body
        ⟨Appended before.program [FieldOf naming before.globals name value]
          [InitOf naming before.globals name value body]
          [.line statement.body.text,
            .value (some name) (.variable (FieldOf naming before.globals name value).name)],
        (before.globals.declareVariable naming name (before.globals.kindOf value)).1⟩
  | definition (shape : statement.body = .definition name parameters formula)
      (lowered : Lowers (before.globals.enterFunction naming parameters) statement.line formula body) :
      Step naming before statement body
        ⟨Appended before.program [] [FunctionOf naming before.globals name parameters body]
          [.line statement.body.text, .line (DeclaredLine name parameters)],
        (before.globals.declareFunction naming name parameters.length).1⟩
  | expression (lowered : Lowers before.globals statement.line statement.body value) :
      Step naming before statement value
        ⟨Appended before.program [] [] [.line statement.body.text, .value none value],
        before.globals⟩

/-- A statement that is lowered makes one of the steps. -/
theorem step_of_ok (lowered : Lowering.statement naming before statement = .ok after) :
    ∃ expr, Step naming before statement expr after := by
  unfold Lowering.statement at lowered
  split at lowered
  · rename_i name value shape
    obtain ⟨body, loweredValue, rest⟩ := except_bind_ok lowered
    cases rest
    exact ⟨body, .assignment shape (lowers_of_ok value body loweredValue)⟩
  · rename_i name parameters inner shape
    obtain ⟨body, loweredBody, rest⟩ := except_bind_ok lowered
    cases rest
    have step := Step.definition shape (lowers_of_ok inner body loweredBody)
    rw [Appended, List.append_nil] at step
    exact ⟨body, step⟩
  · obtain ⟨value, loweredValue, rest⟩ := except_bind_ok lowered
    cases rest
    have step : Step naming before statement value _ :=
      .expression (lowers_of_ok statement.body value loweredValue)
    rw [Appended, List.append_nil, List.append_nil] at step
    exact ⟨value, step⟩

/-- What a lowered assignment adds, with the expression that its formula is lowered to. -/
theorem assignment_of_ok
    (lowered : Lowering.statement naming before ⟨.assignment name value, line⟩ = .ok after) :
    ∃ body main, value.lower before.globals line = .ok body ∧
      after = ⟨Appended before.program [FieldOf naming before.globals name value]
          [InitOf naming before.globals name value body] main,
        (before.globals.declareVariable naming name (before.globals.kindOf value)).1⟩ := by
  obtain ⟨body, loweredValue, rest⟩ := except_bind_ok lowered
  cases rest
  exact ⟨body, _, loweredValue, rfl⟩

/-- The steps of the statements of a sheet, from first to last. -/
inductive Steps (naming : Naming) : Lowering → List Statement → List Expr → Lowering → Prop where
  | nil : Steps naming before [] [] before
  | cons (step : Step naming before first expr middle)
      (rest : Steps naming middle later exprs after) :
      Steps naming before (first :: later) (expr :: exprs) after

/-- Statements that are lowered make their steps. -/
theorem steps_of_ok (lowered : Lowering.statements naming before statements = .ok after) :
    ∃ exprs, Steps naming before statements exprs after := by
  induction statements generalizing before with
  | nil => cases lowered; exact ⟨[], .nil⟩
  | cons first later ih =>
    rw [Lowering.statements] at lowered
    split at lowered
    · rename_i middle loweredFirst
      obtain ⟨expr, step⟩ := step_of_ok loweredFirst
      obtain ⟨exprs, rest⟩ := ih lowered
      exact ⟨expr :: exprs, .cons step rest⟩
    · cases lowered

/-- Lowers statements in order and passes over those with a fault. -/
def lowerEach (naming : Naming) (state : Lowering) : List Statement → Lowering
  | [] => state
  | first :: rest =>
    match state.statement naming first with
    | .ok next => lowerEach naming next rest
    | .error _ => lowerEach naming state rest

/-- Whatever is passed over, the other statements make their steps. -/
theorem steps_of_each (naming : Naming) (before : Lowering) (statements : List Statement) :
    ∃ accepted exprs, accepted.Sublist statements ∧
      Steps naming before accepted exprs (lowerEach naming before statements) := by
  induction statements generalizing before with
  | nil => exact ⟨[], [], .slnil, .nil⟩
  | cons first later ih =>
    rw [lowerEach]
    split
    · rename_i middle lowered
      obtain ⟨expr, step⟩ := step_of_ok lowered
      obtain ⟨accepted, exprs, kept, rest⟩ := ih middle
      exact ⟨first :: accepted, expr :: exprs, kept.cons_cons first, .cons step rest⟩
    · obtain ⟨accepted, exprs, kept, rest⟩ := ih before
      exact ⟨accepted, exprs, kept.cons first, rest⟩

/-- Lowering only appends to a program. -/
theorem steps_appended (steps : Steps naming before statements exprs after) :
    ∃ fields functions main, after.program = Appended before.program fields functions main := by
  induction steps with
  | nil => exact ⟨[], [], [], by simp⟩
  | cons step rest ih =>
    obtain ⟨fields, functions, main, added⟩ := ih
    rw [added]
    cases step <;> exact ⟨_, _, _, appended_twice⟩

/-- A sheet is lowered part by part. -/
theorem statements_append (first later : List Statement) (before : Lowering) :
    before.statements naming (first ++ later) =
      (before.statements naming first).bind fun middle => middle.statements naming later := by
  induction first generalizing before with
  | nil => rfl
  | cons statement rest ih =>
    rw [List.cons_append, Lowering.statements, Lowering.statements]
    split
    · rename_i next lowered
      simp only [ih]
    · rfl

/-- A lowered sheet was lowered up to each of its statements, then that statement, then the others. -/
theorem statements_split {before after : Lowering} {earlier later : List Statement}
    (lowered : before.statements naming (earlier ++ statement :: later) = .ok after) :
    ∃ middle next, before.statements naming earlier = .ok middle ∧
      middle.statement naming statement = .ok next ∧ next.statements naming later = .ok after := by
  rw [statements_append] at lowered
  cases early : before.statements naming earlier with
  | error fault => rw [early] at lowered; cases lowered
  | ok middle =>
    rw [early] at lowered
    change middle.statements naming (statement :: later) = .ok after at lowered
    rw [Lowering.statements] at lowered
    split at lowered
    · rename_i next here
      exact ⟨middle, next, rfl, here, lowered⟩
    · cases lowered

end FormulaSheet.LoweringSteps
