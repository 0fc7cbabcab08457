import Mathlib.Data.List.Basic
import FormulaSheet.Proofs.LoweringSteps
import FormulaSheet.Scope.Resolution

/-! Resolution and lowering walk a sheet separately, the one bottom up and the other top down. They
bind the same names in the same way, the names that resolution reports as free are those the lowered
program asks for, and a sheet that resolves can only fail to be lowered for want of a value. Looking
a function up says no more than that it is built in; its target is looked up again by its name, and
always found. This is said by putting anything else into the branch for a missing one. -/
namespace FormulaSheet.ResolutionAgreement
open Target (Program Expr Callee Action Field Function)
open LoweringSteps Sequencing

mutual

/-- The names that an expression asks for, from left to right. -/
def asked : Expr → List String
  | .long _ | .double _ | .string _ | .variable _ | .pi => []
  | .binary _ lhs rhs => asked lhs ++ asked rhs
  | .neg operand | .cast _ operand => asked operand
  | .call (.helper .readNumber) [.string name] => [name]
  | .call _ arguments => askedAll arguments

def askedAll : List Expr → List String
  | [] => []
  | first :: rest => asked first ++ askedAll rest

end

/-- The expressions of a program in the order of the statements they come from. Every statement has
two lines in the main routine. A value without a label is the expression itself; the expression of an
assignment or a definition is the body of the next function. -/
def expressionsOf : List Function → List Action → List Expr
  | functions, .line _ :: .value none value :: rest => value :: expressionsOf functions rest
  | function :: functions, .line _ :: _ :: rest => function.body :: expressionsOf functions rest
  | _, _ => []

/-- The names that a program asks for, statement by statement. -/
def askedBy (program : Program) : List String :=
  (expressionsOf program.functions program.main).flatMap asked

/-- `builtin_callee`: the target of the built-in function with a given name. -/
def calleeOf? : String → Option Callee
  | "sin" => some (.math .sin)
  | "cos" => some (.math .cos)
  | "tan" => some (.math .tan)
  | "pow" => some (.math .pow)
  | "sqrt" => some (.math .sqrt)
  | "sec" => some (.helper .sec)
  | "csc" => some (.helper .csc)
  | "cot" => some (.helper .cot)
  | "sech" => some (.helper .sech)
  | "csch" => some (.helper .csch)
  | "coth" => some (.helper .coth)
  | "root" => some (.helper .nthRoot)
  | _ => none

/-- The target of a function that has been looked up, or what `guard` gives where a built-in one has
none. -/
def guardedCallee (guard : String → Except Fault Callee) (name : String) :
    FunctionRef → Except Fault Callee
  | .builtin _ =>
    match calleeOf? name with
    | some callee => .ok callee
    | none => guard name
  | .user generated => .ok (.user generated)

mutual

/-- Lowering with a guard wherever a function is called. -/
def guardedLower (guard : String → Except Fault Callee) (scope : SymbolTable) (line : Option Nat) :
    Formula → Except Fault Expr
  | .number (.integer value) => return .long value
  | .number (.float value) => return .double value
  | .identifier name => return (← scope.value name line).expr name
  | .binary op lhs rhs => do
    let left ← guardedLower guard scope line lhs
    let right ← guardedLower guard scope line rhs
    return op.lower left right
  | .unary .plus operand => guardedLower guard scope line operand
  | .unary .minus operand => return .neg (← guardedLower guard scope line operand)
  | .call name arguments => do
    let function ← scope.function name arguments.length line
    let callee ← guardedCallee guard name function
    return .call callee (← guardedLowerAll guard scope line arguments)
  | .assignment _ _ | .definition _ _ _ => throw (.unsupported .nestedDeclaration line)
  | .empty => throw (.unsupported .emptyExpression line)

def guardedLowerAll (guard : String → Except Fault Callee) (scope : SymbolTable) (line : Option Nat) :
    List Formula → Except Fault (List Expr)
  | [] => return []
  | formula :: rest => do
    let first ← guardedLower guard scope line formula
    return first :: (← guardedLowerAll guard scope line rest)

end

/-! ## Targets of built-in functions -/

private theorem calleeOf?_of_named (named : Builtin.ofName? name = some function) :
    calleeOf? name = some function.callee := by
  unfold Builtin.ofName? at named
  split at named <;> cases named <;> rfl

/-- A function that is found has a target, and no guard is asked for it. -/
theorem guardedCallee_of_found (guard : String → Except Fault Callee)
    (found : SymbolTable.function scope name count line = .ok function) :
    guardedCallee guard name function = .ok function.callee := by
  cases function with
  | builtin function =>
    have named := (SymbolTable.function_eq_builtin_iff scope name count line function).mp found
    rw [guardedCallee, calleeOf?_of_named named.1]
    rfl
  | user generated => rfl

mutual

private theorem guardedLower_eq (guard : String → Except Fault Callee) (scope : SymbolTable) (line : Option Nat)
    (formula : Formula) : guardedLower guard scope line formula = formula.lower scope line := by
  cases formula with
  | number value => cases value <;> rfl
  | identifier name => rfl
  | binary op lhs rhs =>
    rw [guardedLower, Formula.lower, guardedLower_eq guard scope line lhs, guardedLower_eq guard scope line rhs]
  | unary op operand =>
    cases op with
    | plus => rw [guardedLower, Formula.lower, guardedLower_eq guard scope line operand]
    | minus => rw [guardedLower, Formula.lower, guardedLower_eq guard scope line operand]
  | call name arguments =>
    rw [guardedLower, Formula.lower, guardedLowerAll_eq guard scope line arguments]
    cases found : scope.function name arguments.length line with
    | error fault => rfl
    | ok function =>
      change (guardedCallee guard name function >>= _) = _
      rw [guardedCallee_of_found guard found]
      rfl
  | assignment name value => rfl
  | definition name parameters body => rfl
  | empty => rfl

private theorem guardedLowerAll_eq (guard : String → Except Fault Callee) (scope : SymbolTable)
    (line : Option Nat) (formulas : List Formula) :
    guardedLowerAll guard scope line formulas = Formula.lowerAll scope line formulas := by
  cases formulas with
  | nil => rfl
  | cons formula rest =>
    rw [guardedLowerAll, Formula.lowerAll, guardedLower_eq guard scope line formula,
      guardedLowerAll_eq guard scope line rest]

end

/-! ## Names asked for -/

@[simp]
theorem asked_lowered_binary (op : BinaryOp) (a b : Expr) :
    asked (op.lower a b) = asked a ++ asked b := by
  cases op <;> simp [BinaryOp.lower, asked]

/-- A function of the sheet is never the one that asks for a value. -/
@[simp]
theorem asked_call (function : FunctionRef) (exprs : List Expr) :
    asked (.call function.callee exprs) = askedAll exprs := by
  cases function with
  | builtin function => cases function <;> rfl
  | user name => rfl

/-- Noting names one after the other keeps the first occurrence of each. -/
theorem noted_names {state : Resolution} {noted : List String}
    (known : state.freeVariables = noted.eraseDups) (names : List String) :
    names.foldl Resolution.noteFree state =
      { state with freeVariables := (noted ++ names).eraseDups } := by
  induction names generalizing state noted with
  | nil => simp [← known]
  | cons name rest ih =>
    have once : state.noteFree name =
        { state with freeVariables := (noted ++ [name]).eraseDups } := by
      obtain ⟨globals, free, fault⟩ := state
      subst known
      by_cases old : name ∈ noted
      · simp [Resolution.noteFree, List.eraseDups_append, List.removeAll, old]
      · simp [Resolution.noteFree, List.eraseDups_append, List.removeAll, List.eraseDups_cons, old]
    rw [List.foldl_cons, once, ih rfl]
    simp

/-! ## Formulas -/

private theorem inspect_all_asked {scope : SymbolTable} {line : Option Nat}
    (each : List.Forall₂ (fun formula expr => ∀ state : Resolution,
      formula.postorder.foldl (Resolution.inspect scope line) state =
        (asked expr).foldl Resolution.noteFree state) formulas exprs) (state : Resolution) :
    (Formula.postorderList formulas).foldl (Resolution.inspect scope line) state =
      (askedAll exprs).foldl Resolution.noteFree state := by
  induction each generalizing state with
  | nil => rfl
  | cons first _ ih =>
    rw [Formula.postorderList, askedAll, List.foldl_append, List.foldl_append, first, ih]

/-- Visiting a formula that is lowered notes exactly the names its expression asks for, and finds
no fault. -/
theorem visit_lowered (lowered : Lowers scope line formula expr) (state : Resolution) :
    state.visit scope line formula = (asked expr).foldl Resolution.noteFree state := by
  unfold Resolution.visit
  induction lowered generalizing state with
  | integer value => rfl
  | float value => rfl
  | identifier found =>
    rename_i name ref
    simp only [Formula.postorder, List.foldl_cons, List.foldl_nil, Resolution.inspect, found]
    cases ref <;> rfl
  | binary op left right ihLeft ihRight =>
    simp only [Formula.postorder, List.foldl_append, List.foldl_cons, List.foldl_nil,
      Resolution.inspect, asked_lowered_binary, ihLeft, ihRight]
  | plus inner ih =>
    simp only [Formula.postorder, List.foldl_append, List.foldl_cons, List.foldl_nil,
      Resolution.inspect, ih]
  | minus inner ih =>
    simp only [Formula.postorder, List.foldl_append, List.foldl_cons, List.foldl_nil,
      Resolution.inspect, asked, ih]
  | call found paired each ih =>
    have arguments := inspect_all_asked (List.forall₂_iff_zip.mpr ⟨paired, ih⟩) state
    simp only [Formula.postorder, List.foldl_append, List.foldl_cons, List.foldl_nil,
      Resolution.inspect, found, asked_call, arguments]

/-! ## Statements -/

private theorem noted_globals (names : List String) (state : Resolution) :
    (names.foldl Resolution.noteFree state).globals = state.globals := by
  induction names generalizing state with
  | nil => rfl
  | cons name rest ih =>
    rw [List.foldl_cons, ih, Resolution.noteFree]
    split <;> rfl

/-- A lowered statement adds its expression to those of the program, and resolving it notes the
names of that expression and binds what lowering binds. -/
theorem step_resolved (step : Step naming before statement expr after) :
    (∃ fields functions main, after.program = Appended before.program fields functions main ∧
      ∀ moreFunctions moreMain, expressionsOf (functions ++ moreFunctions) (main ++ moreMain) =
        expr :: expressionsOf moreFunctions moreMain) ∧
      ∀ state : Resolution, state.globals = before.globals → state.fault = none →
        Resolution.statement naming state statement =
          { (asked expr).foldl Resolution.noteFree state with globals := after.globals } := by
  cases step with
  | assignment shape lowered =>
    refine ⟨⟨_, _, _, rfl, fun _ _ => rfl⟩, ?_⟩
    intro state same clean
    simp only [Resolution.statement, clean, Option.isSome_none, Bool.false_eq_true, ↓reduceIte,
      shape, same, visit_lowered lowered]
  | definition shape lowered =>
    refine ⟨⟨_, _, _, rfl, fun _ _ => rfl⟩, ?_⟩
    intro state same clean
    simp only [Resolution.statement, clean, Option.isSome_none, Bool.false_eq_true, ↓reduceIte,
      shape, same, visit_lowered lowered]
  | expression lowered =>
    refine ⟨⟨_, _, _, rfl, fun _ _ => rfl⟩, ?_⟩
    intro state same clean
    obtain ⟨notAssignment, notDefinition⟩ := lowered_not_declaration lowered
    rw [← same] at lowered ⊢
    rw [← noted_globals _ state, ← visit_lowered lowered state]
    simp only [Resolution.statement, clean, Option.isSome_none, Bool.false_eq_true, ↓reduceIte]

/-- The expressions of a lowered sheet are read off its program. -/
theorem steps_expressions (steps : Steps naming before statements exprs after) :
    ∃ fields functions main, after.program = Appended before.program fields functions main ∧
      expressionsOf functions main = exprs := by
  induction steps with
  | nil => exact ⟨[], [], [], by simp, rfl⟩
  | cons step rest ih =>
    obtain ⟨⟨fields, functions, main, added, expressions⟩, -⟩ := step_resolved step
    obtain ⟨moreFields, moreFunctions, moreMain, addedLater, later⟩ := ih
    refine ⟨fields ++ moreFields, functions ++ moreFunctions, main ++ moreMain, ?_, ?_⟩
    · rw [addedLater, added, appended_twice]
    · rw [expressions, later]

private theorem askedBy_of_steps (steps : Steps naming (start namespaceName className) statements exprs final) :
    askedBy final.program = exprs.flatMap asked := by
  obtain ⟨fields, functions, main, added, expressions⟩ := steps_expressions steps
  rw [added, ← expressions]
  rfl

/-- Resolution follows lowering through the statements of a sheet. -/
theorem steps_resolved (steps : Steps naming before statements exprs after)
    (state : Resolution) (same : state.globals = before.globals) (clean : state.fault = none)
    (known : state.freeVariables = noted.eraseDups) :
    statements.foldl (Resolution.statement naming) state =
      ⟨after.globals, (noted ++ exprs.flatMap asked).eraseDups, none⟩ := by
  induction steps generalizing state noted with
  | nil => simp [← same, ← clean, ← known]
  | cons step rest ih =>
    have visited := (step_resolved step).2 state same clean
    rw [noted_names known] at visited
    rw [List.foldl_cons, ih (Resolution.statement naming state _) (by rw [visited])
      (by rw [visited]; exact clean) (by rw [visited])]
    simp

/-- What resolution finds in a lowered sheet. -/
theorem ofStatements_of_steps
    (steps : Steps naming (start namespaceName className) statements exprs final) :
    Resolution.ofStatements naming statements =
      ⟨final.globals, (exprs.flatMap asked).eraseDups, none⟩ := by
  have known : ({} : Resolution).freeVariables = ([] : List String).eraseDups := rfl
  rw [Resolution.ofStatements, steps_resolved steps {} rfl rfl known, List.nil_append]

/-! ## Formulas without a value -/

/-- The two faults of a formula that has no value. -/
def NoValue (line : Option Nat) (fault : Fault) : Prop :=
  fault = .unsupported .emptyExpression line ∨ fault = .unsupported .nestedDeclaration line

private theorem inspect_fault {formula : Formula}
    (clean : (Resolution.inspect scope line state formula).fault = none) : state.fault = none := by
  cases state with
  | mk globals free fault =>
    cases fault with
    | none => rfl
    | some fault =>
      revert clean
      unfold Resolution.inspect Resolution.noteFree Resolution.fail
      repeat' split
      all_goals simp

/-- A fault that was found stays. -/
private theorem visit_fault (formulas : List Formula)
    (clean : (formulas.foldl (Resolution.inspect scope line) state).fault = none) :
    state.fault = none := by
  induction formulas generalizing state with
  | nil => exact clean
  | cons formula rest ih => exact inspect_fault (ih clean)

private theorem fail_fault (state : Resolution) (fault : Fault) : (state.fail fault).fault ≠ none := by
  unfold Resolution.fail
  cases state.fault <;> simp

mutual

/-- A formula in which every name resolves can only lack a value. -/
theorem lower_error (formula : Formula)
    (clean : (formula.postorder.foldl (Resolution.inspect scope line) state).fault = none)
    (failed : formula.lower scope line = .error fault) : NoValue line fault := by
  cases formula with
  | number value => cases value <;> cases failed
  | identifier name =>
    rw [Formula.lower] at failed
    rcases except_bind_error failed with missing | ⟨ref, found, rest⟩
    · simp only [Formula.postorder, List.foldl_cons, List.foldl_nil, Resolution.inspect,
        missing] at clean
      exact absurd clean (fail_fault state fault)
    · cases rest
  | binary op lhs rhs =>
    rw [Formula.postorder, List.foldl_append, List.foldl_append] at clean
    have cleanRight := visit_fault _ clean
    rw [Formula.lower] at failed
    rcases except_bind_error failed with left | ⟨a, loweredLeft, rest⟩
    · exact lower_error lhs (visit_fault _ cleanRight) left
    · rcases except_bind_error rest with right | ⟨b, loweredRight, rest⟩
      · exact lower_error rhs cleanRight right
      · cases rest
  | unary op operand =>
    rw [Formula.postorder, List.foldl_append] at clean
    have cleanOperand := visit_fault _ clean
    cases op with
    | plus =>
      rw [Formula.lower] at failed
      exact lower_error operand cleanOperand failed
    | minus =>
      rw [Formula.lower] at failed
      rcases except_bind_error failed with inner | ⟨a, loweredInner, rest⟩
      · exact lower_error operand cleanOperand inner
      · cases rest
  | call name arguments =>
    rw [Formula.postorder, List.foldl_append] at clean
    rw [Formula.lower] at failed
    rcases except_bind_error failed with missing | ⟨function, found, rest⟩
    · simp only [List.foldl_cons, List.foldl_nil, Resolution.inspect, missing] at clean
      exact absurd clean (fail_fault _ fault)
    · rcases except_bind_error rest with inner | ⟨exprs, loweredAll, rest⟩
      · exact lower_all_error arguments (visit_fault _ clean) inner
      · cases rest
  | assignment name value => cases failed; exact .inr rfl
  | definition name parameters body => cases failed; exact .inr rfl
  | empty => cases failed; exact .inl rfl

private theorem lower_all_error (formulas : List Formula)
    (clean : ((Formula.postorderList formulas).foldl (Resolution.inspect scope line) state).fault =
      none)
    (failed : Formula.lowerAll scope line formulas = .error fault) : NoValue line fault := by
  cases formulas with
  | nil => cases failed
  | cons formula rest =>
    rw [Formula.postorderList, List.foldl_append] at clean
    rw [Formula.lowerAll] at failed
    rcases except_bind_error failed with first | ⟨expr, lowered, others⟩
    · exact lower_error formula (visit_fault _ clean) first
    · rcases except_bind_error others with later | ⟨exprs, loweredAll, done⟩
      · exact lower_all_error rest clean later
      · cases done

end

/-- A statement that resolves can only fail to be lowered for want of a value. -/
theorem statement_error {before : Lowering} {state : Resolution}
    (same : state.globals = before.globals) (unseen : state.fault = none)
    (clean : (Resolution.statement naming state statement).fault = none)
    (failed : Lowering.statement naming before statement = .error fault) :
    NoValue statement.line fault := by
  simp only [Resolution.statement, unseen, Option.isSome_none, Bool.false_eq_true, ↓reduceIte,
    same] at clean
  unfold Lowering.statement at failed
  split at failed
  · rename_i name value shape
    rw [shape] at clean
    rcases except_bind_error failed with inner | ⟨body, lowered, rest⟩
    · exact lower_error value clean inner
    · cases rest
  · rename_i name parameters body shape
    rw [shape] at clean
    rcases except_bind_error failed with inner | ⟨body, lowered, rest⟩
    · exact lower_error body clean inner
    · cases rest
  · rcases except_bind_error failed with inner | ⟨value, lowered, rest⟩
    · exact lower_error statement.body (by simpa [Resolution.visit] using clean) inner
    · cases rest

private theorem statements_fault (statements : List Statement) {state : Resolution}
    (clean : (statements.foldl (Resolution.statement naming) state).fault = none) :
    state.fault = none := by
  induction statements generalizing state with
  | nil => exact clean
  | cons first later ih =>
    have cleanFirst := ih clean
    cases seen : state.fault with
    | none => rfl
    | some fault => simp [Resolution.statement, seen] at cleanFirst

/-- A sheet that resolves can only fail to be lowered for want of a value. -/
theorem statements_error {before : Lowering} {state : Resolution}
    (same : state.globals = before.globals)
    (clean : (statements.foldl (Resolution.statement naming) state).fault = none)
    (failed : Lowering.statements naming before statements = .error fault) :
    ∃ statement ∈ statements, NoValue statement.line fault := by
  induction statements generalizing before state with
  | nil => cases failed
  | cons first later ih =>
    have cleanFirst := statements_fault later clean
    have unseen := statements_fault [first] cleanFirst
    rw [Lowering.statements] at failed
    split at failed
    · rename_i middle lowered
      obtain ⟨expr, step⟩ := step_of_ok lowered
      have bound : (Resolution.statement naming state first).globals = middle.globals := by
        rw [(step_resolved step).2 state same unseen]
      obtain ⟨statement, member, fails⟩ := ih bound clean failed
      exact ⟨statement, List.mem_cons_of_mem _ member, fails⟩
    · rename_i fault' failedFirst
      cases failed
      exact ⟨first, List.mem_cons_self, statement_error same unseen cleanFirst failedFirst⟩

/-! ## Sheets -/

/-- **Resolution and lowering agree.** On a sheet that is lowered, resolution finds no fault, ends
with the same table of names, and reports exactly the names that the program asks for, each at its
first occurrence. On a sheet that resolves and is not lowered, some statement has an empty expression
or a declaration where a value is needed, and nothing else is wrong. In particular no built-in
function lacks a target: whatever lowering did about that, every formula is lowered as it is. -/
theorem resolution_agrees_with_lowering (naming : Naming) (namespaceName className : String)
    (statements : List Statement) :
    (∀ final, Lowering.statements naming (start namespaceName className) statements = .ok final →
      (Resolution.ofStatements naming statements).fault = none ∧
      (Resolution.ofStatements naming statements).globals = final.globals ∧
      (Resolution.ofStatements naming statements).freeVariables =
        (askedBy final.program).eraseDups) ∧
    (∀ fault, (Resolution.ofStatements naming statements).fault = none →
      Lowering.statements naming (start namespaceName className) statements = .error fault →
      ∃ statement ∈ statements, fault = .unsupported .emptyExpression statement.line ∨
        fault = .unsupported .nestedDeclaration statement.line) ∧
    ∀ (guard : String → Except Fault Callee) (scope : SymbolTable) (line : Option Nat)
      (formula : Formula), guardedLower guard scope line formula = formula.lower scope line := by
  refine ⟨?_, ?_, guardedLower_eq⟩
  · intro final lowered
    obtain ⟨exprs, steps⟩ := steps_of_ok lowered
    rw [ofStatements_of_steps steps, askedBy_of_steps steps]
    exact ⟨rfl, rfl, rfl⟩
  · intro fault clean failed
    exact statements_error rfl clean failed

/-- A sheet that binds `x` twice, around a function whose parameter hides it, and asks for `a` and
`b`; and one that resolves although an operand is missing. -/
theorem resolution_agrees_on_rebound_name :
    (∃ final, Lowering.statements {} (start "Sheet" "Program")
        [⟨.assignment "x" (.binary .add (.identifier "a") (.number (.integer 1))), some 1⟩,
          ⟨.definition "f" ["x"] (.binary .mul (.identifier "x") (.identifier "b")), some 2⟩,
          ⟨.assignment "x" (.binary .sub (.call "f" [.identifier "x"]) (.identifier "a")), some 3⟩] =
        .ok final ∧ (askedBy final.program).eraseDups = ["a", "b"]) ∧
      ∃ fault, Lowering.statements {} (start "Sheet" "Program")
        [⟨.assignment "x" (.binary .add (.identifier "a") .empty), some 4⟩] = .error fault ∧
        (fault = .unsupported .emptyExpression (some 4) ∨
          fault = .unsupported .nestedDeclaration (some 4)) := by
  constructor
  · have free : (Resolution.ofStatements {}
        [⟨.assignment "x" (.binary .add (.identifier "a") (.number (.integer 1))), some 1⟩,
          ⟨.definition "f" ["x"] (.binary .mul (.identifier "x") (.identifier "b")), some 2⟩,
          ⟨.assignment "x" (.binary .sub (.call "f" [.identifier "x"]) (.identifier "a")), some 3⟩]
        ).freeVariables = ["a", "b"] := by decide +kernel
    refine ⟨_, rfl, ?_⟩
    rw [← free]
    exact ((resolution_agrees_with_lowering {} "Sheet" "Program" _).1 _ rfl).2.2.symm
  · obtain ⟨statement, member, missing⟩ := (resolution_agrees_with_lowering {} "Sheet" "Program"
      [⟨.assignment "x" (.binary .add (.identifier "a") .empty), some 4⟩]).2.1 _ rfl rfl
    obtain rfl := List.mem_singleton.mp member
    exact ⟨_, rfl, missing⟩

end FormulaSheet.ResolutionAgreement
