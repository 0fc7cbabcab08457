import FormulaSheet.Proofs.LoweringSteps
import FormulaSheet.Proofs.RunOutcomes

/-! A lowered formula computes what the formula means. Names of the sheet and names of the program
are related by `Matches`, wherever the program looks its names up; under it the expression of a formula
and the formula itself are the same run. The kind of number that lowering foresees for a formula is
the kind that the run returns. -/
namespace FormulaSheet.FormulaSimulation
open Target LoweringSteps RunOutcomes SheetSemantics

/-! ## Kinds of values -/

def kind : Value → NumberKind
  | .long _ => .integer
  | .double _ => .float

/-- Conversion to the type that a value has changes nothing. -/
theorem cast_of_kind {value : Value} (same : kind value = expected) :
    value.cast (Ty.ofKind expected) = value := by
  subst same
  cases value <;> rfl

private theorem kind_arithmetic (op : BinaryOp) (a b : Value) :
    kind (arithmetic op a b) = if op = .div then .float else (kind a).join (kind b) := by
  cases op <;> cases a <;> cases b <;> rfl

private theorem kind_negation (a : Value) : kind (negation a) = kind a := by
  cases a <;> rfl

/-! ## Names -/

/-- What a symbol of a table stands for in a program is a meaning in a sheet: a value of the right kind,
or a function that returns doubles. -/
inductive Stands (call : String → List Value → Run Value) (fields parameters : Bindings Value) :
    Symbol → Meaning → Prop where
  | number (held : (parameters.get? field <|> fields.get? field) = some value)
      (kindIs : kind value = expected) :
      Stands call fields parameters (.variable field expected) (.number value)
  | parameter (held : (parameters.get? name <|> fields.get? name) = some value)
      (kindIs : kind value = .float) : Stands call fields parameters (.parameter name) (.number value)
  | function (same : ∀ values, values.length = arity → call name values = apply values)
      (doubles : ∀ values, Ensures (fun _ => True) (kind · = .float) (apply values)) :
      Stands call fields parameters (.function name arity) (.function apply)

/-- The same names are bound in a table and in a sheet, and stand for the same. -/
def Matches (call : String → List Value → Run Value) (fields parameters : Bindings Value)
    (table : SymbolTable) (env : Env) : Prop :=
  ∀ name, Option.Rel (Stands call fields parameters) (table.get? name) (env name)

theorem matches_some (same : Matches call fields parameters table env)
    (known : table.get? name = some symbol) :
    ∃ meaning, env name = some meaning ∧ Stands call fields parameters symbol meaning := by
  have related := same name
  rw [known] at related
  cases bound : env name with
  | none => rw [bound] at related; cases related
  | some meaning =>
    rw [bound] at related
    cases related with
    | some stands => exact ⟨meaning, rfl, stands⟩

theorem matches_none (same : Matches call fields parameters table env)
    (known : table.get? name = none) : env name = none := by
  have related := same name
  rw [known] at related
  cases bound : env name with
  | none => rfl
  | some meaning => rw [bound] at related; cases related

/-- A name that is bound refers to the same value on both sides. -/
theorem matches_bound (same : Matches call fields parameters table env)
    (found : table.value name line = .ok (.bound generated)) :
    ∃ value, env name = some (.number value) ∧
      (parameters.get? generated <|> fields.get? generated) = some value ∧
      kind value = table.kindOf (.identifier name) := by
  obtain ⟨different, known⟩ := (SymbolTable.value_eq_bound_iff ..).mp found
  rw [SymbolTable.kindOf_identifier _ different]
  rcases known with ⟨expected, known⟩ | known
  · obtain ⟨meaning, inSheet, stands⟩ := matches_some same known
    cases stands with
    | number held kindIs => exact ⟨_, inSheet, held, by rw [known, kindIs]⟩
  · obtain ⟨meaning, inSheet, stands⟩ := matches_some same known
    cases stands with
    | parameter held kindIs => exact ⟨_, inSheet, held, by rw [known, kindIs]⟩

/-! ## Formulas -/

private theorem evalAll_lowered {call : String → List Value → Run Value}
    {fields parameters : Bindings Value} {env : Env} {formulas : List Formula} {exprs : List Expr}
    (paired : formulas.length = exprs.length)
    (each : ∀ {formula expr}, (formula, expr) ∈ formulas.zip exprs →
      evalWith call fields parameters expr = eval env formula) :
    evalAllWith call fields parameters exprs = evalAll env formulas := by
  induction formulas generalizing exprs with
  | nil =>
    obtain rfl := List.length_eq_zero_iff.mp paired.symm
    rfl
  | cons formula rest ih =>
    cases exprs with
    | nil => cases paired
    | cons expr others =>
      rw [evalAllWith, evalAll, each List.mem_cons_self,
        ih (Nat.succ.inj paired) fun member => each (List.mem_cons_of_mem _ member)]

/-- **Lowered formulas.** The expression that a formula becomes reads, prints, fails and returns as the
formula does. -/
theorem eval_lowered (lowered : Lowers scope line formula expr)
    (same : Matches call fields parameters scope env) :
    evalWith call fields parameters expr = eval env formula := by
  induction lowered with
  | integer value => rw [evalWith, eval]
  | float value => rw [evalWith, eval]
  | identifier found =>
    rename_i name ref
    cases ref with
    | pi =>
      rw [SymbolTable.value_eq_pi_iff] at found
      rw [ValueRef.expr, evalWith, eval, if_pos found]
      rfl
    | bound generated =>
      obtain ⟨different, -⟩ := (SymbolTable.value_eq_bound_iff ..).mp found
      obtain ⟨value, inSheet, held, -⟩ := matches_bound same found
      rw [ValueRef.expr, evalWith, eval, if_neg different, inSheet, held]
    | free =>
      obtain ⟨different, known⟩ := (SymbolTable.value_eq_free_iff ..).mp found
      rw [ValueRef.expr, evalWith, eval, if_neg different, matches_none same known, readNumber_eq]
  | binary op _ _ left right => rw [eval_arithmetic, left, right, eval]
  | plus _ inner => rw [inner, eval]
  | minus _ inner =>
    rw [evalWith, inner, eval]
    simp only [neg_value]
  | call found paired inner each =>
    rename_i name function arguments exprs
    rw [eval_call _ (callee_ne_readNumber function), eval, ← evalAll_lowered paired each]
    refine bind_congr_of_ensures (ensures_evalAll_length exprs) fun values counted => ?_
    cases function with
    | builtin builtin =>
      obtain ⟨named, complete⟩ := (SymbolTable.function_eq_builtin_iff ..).mp found
      obtain ⟨number, applies, computed⟩ := applied_builtin builtin (by omega : values.length = builtin.arity)
      rw [FunctionRef.callee, applies, computed named]
    | user generated =>
      obtain ⟨named, known⟩ := (SymbolTable.function_eq_user_iff ..).mp found
      obtain ⟨meaning, inSheet, stands⟩ := matches_some same known
      rw [FunctionRef.callee, applied, builtinValue?_eq_none named, inSheet]
      cases stands with
      | function applies doubles => exact applies values (by omega)

private theorem ensures_arguments (formulas : List Formula) :
    Ensures (fun _ => True) (fun values => values.length = formulas.length)
      (evalAll env formulas) := by
  induction formulas with
  | nil => rw [evalAll]; exact ensures_pure rfl
  | cons first rest ih =>
    rw [evalAll]
    refine ensures_bind (ensures_any _) fun value _ => ensures_bind ih fun values counted => ?_
    exact ensures_pure (by simp [counted])

/-- A formula that is lowered returns a number of the kind that is foreseen for it. -/
theorem ensures_kind (lowered : Lowers scope line formula expr)
    (same : Matches call fields parameters scope env) :
    Ensures (fun _ => True) (kind · = scope.kindOf formula) (eval env formula) := by
  induction lowered with
  | integer value => rw [eval]; exact ensures_pure rfl
  | float value => rw [eval]; exact ensures_pure rfl
  | identifier found =>
    rename_i name ref
    cases ref with
    | pi =>
      rw [SymbolTable.value_eq_pi_iff] at found
      rw [eval, if_pos found, SymbolTable.kindOf_of_isFloat _ (by simp [Formula.isFloat, found])]
      exact ensures_pure rfl
    | bound generated =>
      obtain ⟨different, -⟩ := (SymbolTable.value_eq_bound_iff ..).mp found
      obtain ⟨value, inSheet, -, kindIs⟩ := matches_bound same found
      rw [eval, if_neg different, inSheet]
      exact ensures_pure kindIs
    | free =>
      obtain ⟨different, known⟩ := (SymbolTable.value_eq_free_iff ..).mp found
      rw [eval, if_neg different, SymbolTable.kindOf_identifier _ different, matches_none same known,
        known]
      rw [← readNumber_eq]
      exact ensures_bind (ensures_readNumber trivial) fun value _ => ensures_pure rfl
  | binary op _ _ left right =>
    rw [eval]
    refine ensures_bind left fun a leftKind => ensures_bind right fun b rightKind => ensures_pure ?_
    rw [kind_arithmetic, SymbolTable.kindOf_binary, leftKind, rightKind]
  | plus _ inner =>
    rw [eval, SymbolTable.kindOf_unary]
    exact inner
  | minus _ inner =>
    rw [eval, SymbolTable.kindOf_unary]
    exact ensures_bind inner fun a innerKind => ensures_pure (by rw [kind_negation, innerKind])
  | call found paired inner each =>
    rename_i name function arguments exprs
    rw [eval, SymbolTable.kindOf_of_isFloat _ rfl]
    refine ensures_bind (ensures_arguments arguments) fun values counted => ?_
    cases function with
    | builtin builtin =>
      obtain ⟨named, complete⟩ := (SymbolTable.function_eq_builtin_iff ..).mp found
      obtain ⟨number, -, computed⟩ := applied_builtin builtin (by omega : values.length = builtin.arity)
      rw [computed named]
      exact ensures_pure rfl
    | user generated =>
      obtain ⟨named, known⟩ := (SymbolTable.function_eq_user_iff ..).mp found
      obtain ⟨meaning, inSheet, stands⟩ := matches_some same known
      rw [builtinValue?_eq_none named, inSheet]
      cases stands with
      | function applies doubles => exact doubles values

end FormulaSheet.FormulaSimulation
