import FormulaSheet.Proofs.CallOrder
import FormulaSheet.Proofs.FormulaSimulation
import FormulaSheet.Proofs.GeneratedNames

/-! The types that lowering writes into a program are the real ones. An expression has a static type, read
off its form and the types of the names in it; what is inferred for a formula is the static type of its
expression; and the machine computes values of that type. So the conversions on the way into a field
change nothing. -/
namespace FormulaSheet.StaticTypes
open Target LoweringSteps RunOutcomes RunSafety CallOrder GeneratedNames FormulaSimulation

/-! ## Types -/

/-- The type of a value. -/
def typeOf (value : Value) : Ty := Ty.ofKind (kind value)

/-- The type of what is computed from two operands: a long only from two longs. -/
def joined : Ty → Ty → Ty
  | .long, .long => .long
  | _, _ => .double

/-- The static type of an expression, given the types of names. Only a text has none. -/
def staticType (types : String → Option Ty) : Expr → Option Ty
  | .long _ => some .long
  | .double _ | .pi => some .double
  | .string _ => none
  | .variable name => types name
  | .binary _ lhs rhs => do return joined (← staticType types lhs) (← staticType types rhs)
  | .neg operand => staticType types operand
  | .cast ty _ => some ty
  | .call _ _ => some .double

/-- The types of names in a function of a program. Parameters are doubles and hide fields. -/
def typesIn (program : Program) (parameters : List String) (name : String) : Option Ty :=
  if name ∈ parameters then some .double else (program.field? name).map (·.ty)

private theorem typeOf_cast (value : Value) (ty : Ty) : typeOf (value.cast ty) = ty := by
  cases value <;> cases ty <;> rfl

private theorem cast_of_typeOf {value : Value} (same : typeOf value = ty) : value.cast ty = value := by
  subst same
  exact cast_of_kind rfl

private theorem ofKind_join (a b : NumberKind) : Ty.ofKind (a.join b) = joined (Ty.ofKind a) (Ty.ofKind b) := by
  cases a <;> cases b <;> rfl

private theorem ofKind_eq_long_iff (kind : NumberKind) : Ty.ofKind kind = .long ↔ kind = .integer := by
  cases kind <;> simp [Ty.ofKind]

/-! ## Inferred types are static types -/

/-- What is inferred for a formula is the static type of its expression, if that holds of the names in
it. -/
theorem staticType_of_lowers {types : String → Option Ty}
    (lowered : Lowers scope line formula expr)
    (names : ∀ {name generated line}, scope.value name line = .ok (.bound generated) →
      types generated = some (Ty.ofKind (scope.kindOf (.identifier name)))) :
    staticType types expr = some (Ty.ofKind (scope.kindOf formula)) := by
  induction lowered with
  | integer value => rfl
  | float value => rfl
  | identifier found =>
    rename_i name ref
    cases ref with
    | pi =>
      rw [SymbolTable.value_eq_pi_iff] at found
      rw [SymbolTable.kindOf_of_isFloat _ (by simp [Formula.isFloat, found])]
      rfl
    | bound generated => exact names found
    | free =>
      obtain ⟨different, unknown⟩ := (SymbolTable.value_eq_free_iff ..).mp found
      rw [SymbolTable.kindOf_identifier _ different, unknown]
      rfl
  | binary op _ _ left right =>
    rw [SymbolTable.kindOf_binary]
    cases op with
    | div => simp [BinaryOp.lower, staticType, right, joined, Ty.ofKind]
    | _ => simp [BinaryOp.lower, staticType, left, right, ofKind_join]
  | plus _ inner =>
    rw [SymbolTable.kindOf_unary]
    exact inner
  | minus _ inner =>
    rw [SymbolTable.kindOf_unary]
    exact inner
  | call found paired each inner =>
    rw [SymbolTable.kindOf_of_isFloat _ rfl]
    rfl

/-! ## Static types are the types of values -/

private theorem ensures_liftExcept {outcome : Except RunFault α} {good : α → Prop}
    (holds : ∀ value, outcome = .ok value → good value) :
    Ensures (fun _ => True) good (liftExcept outcome : Run α) := by
  cases outcome with
  | ok value => exact ensures_pure (holds value rfl)
  | error fault => exact ensures_throw trivial

private theorem typeOf_neg (value : Value) : typeOf value.neg = typeOf value := by
  cases value <;> rfl

private theorem typeOf_binary {a b : Value} (computed : a.binary op b = .ok value) :
    typeOf value = joined (typeOf a) (typeOf b) := by
  cases a <;> cases b
  case long.long a b =>
    cases exact : Value.longBinary op a b with
    | error fault => simp [Value.binary, exact, Except.map] at computed
    | ok result =>
      simp only [Value.binary, exact, Except.map, Except.ok.injEq] at computed
      subst computed
      rfl
  all_goals
    simp only [Value.binary, Except.ok.injEq] at computed
    subst computed
    rfl

/-- An expression computes only values of its static type, if the names in it hold values of their
types and the functions that it calls return doubles. -/
theorem eval_typed {types : String → Option Ty} {call : String → List Value → Run Value}
    {fields parameters : Bindings Value} (expr : Expr) {ty : Ty}
    (typed : staticType types expr = some ty)
    (names : ∀ name value, (parameters.get? name <|> fields.get? name) = some value →
      types name = some (typeOf value))
    (calls : ∀ name ∈ callees expr, ∀ values,
      Ensures (fun _ => True) (typeOf · = .double) (call name values)) :
    Ensures (fun _ => True) (typeOf · = ty) (evalWith call fields parameters expr) := by
  cases expr with
  | long value =>
    rw [evalWith]
    exact ensures_pure (Option.some.inj typed)
  | double value =>
    rw [evalWith]
    exact ensures_pure (Option.some.inj typed)
  | string text => cases typed
  | «variable» name =>
    rw [evalWith]
    split
    · rename_i value held
      rw [staticType, names name value held] at typed
      exact ensures_pure (Option.some.inj typed)
    · exact ensures_throw trivial
  | pi =>
    rw [evalWith]
    exact ensures_pure (Option.some.inj typed)
  | binary op lhs rhs =>
    simp only [callees, List.mem_append] at calls
    simp only [staticType, Option.bind_eq_bind, Option.bind_eq_some_iff, Option.pure_def,
      Option.some.injEq] at typed
    obtain ⟨left, typedLeft, right, typedRight, rfl⟩ := typed
    rw [evalWith]
    refine ensures_bind (eval_typed lhs typedLeft names fun name member =>
      calls name (.inl member)) fun a leftIs => ?_
    refine ensures_bind (eval_typed rhs typedRight names fun name member =>
      calls name (.inr member)) fun b rightIs => ?_
    refine ensures_liftExcept fun value computed => ?_
    rw [typeOf_binary computed, leftIs, rightIs]
  | neg operand =>
    rw [evalWith]
    refine ensures_bind (eval_typed operand typed names calls) fun a isTyped => ensures_pure ?_
    rw [typeOf_neg, isTyped]
  | cast target operand =>
    rw [evalWith]
    refine ensures_bind (ensures_any _) fun a _ => ensures_pure ?_
    rw [typeOf_cast]
    exact Option.some.inj typed
  | call callee arguments =>
    obtain rfl : Ty.double = ty := Option.some.inj typed
    by_cases asks : callee = .helper .readNumber
    · subst asks
      unfold evalWith
      split
      · exact ensures_bind (ensures_readNumber trivial) fun _ _ => ensures_pure rfl
      · exact ensures_throw trivial
    · rw [eval_call callee asks]
      refine ensures_bind (ensures_any _) fun values _ => ?_
      cases callee with
      | math function =>
        exact ensures_bind (ensures_any _) fun _ _ => ensures_pure rfl
      | helper helper =>
        exact ensures_bind (ensures_any _) fun _ _ => ensures_pure rfl
      | user name => exact calls name (by simp [callees]) values

/-! ## Runs -/

/-- The fields that have a value hold one of their type. -/
def WellTyped (program : Program) (known : Bindings Value) : Prop :=
  ∀ name value, known.get? name = some value → (program.field? name).map (·.ty) = some (typeOf value)

/-- The values of the fields at some point of a run: the first of them have been set, and no others. -/
def HeldInRun (program : Program) (known : Bindings Value) : Prop :=
  ∃ set unset depth input console, program.fields = set ++ unset ∧
    setFields program depth {} set ⟨input, ""⟩ = .ok known console

/-- Setting a field keeps the fields well typed, because its value is converted to its type. -/
theorem ensures_setFields_typed (apart : (program.fields.map (·.name)).Nodup)
    {fields : List Field} (included : fields ⊆ program.fields) (known : Bindings Value)
    (typed : WellTyped program known) :
    Ensures (fun _ => True) (WellTyped program) (setFields program depth known fields) := by
  induction fields generalizing known with
  | nil => exact ensures_pure typed
  | cons field rest ih =>
    obtain ⟨member, others⟩ := List.cons_subset.mp included
    rw [setFields]
    refine ensures_bind (ensures_any _) fun value _ => ih others _ ?_
    intro name held found
    rw [Bindings.get?_insert] at found
    split at found
    · rename_i same
      cases found
      subst same
      rw [Program.field?, find?_of_nodup apart member, typeOf_cast]
      rfl
    · exact typed name held found

private theorem wellTyped_of_heldInRun (apart : (program.fields.map (·.name)).Nodup)
    (heldInRun : HeldInRun program known) : WellTyped program known := by
  obtain ⟨set, unset, depth, input, console, fieldsAre, ran⟩ := heldInRun
  have included : set ⊆ program.fields := by
    rw [fieldsAre]
    exact List.subset_append_left _ _
  have typed : Ensures (fun _ => True) (WellTyped program) (setFields program depth {} set) :=
    ensures_setFields_typed apart included {} fun name value found => by cases found
  have held := typed ⟨input, ""⟩
  rw [ran] at held
  exact held

/-- A function returns values of its result type. -/
theorem ensures_call_typed {function : Function} (found : program.function? name = some function)
    (known : Bindings Value) (depth : Nat) (values : List Value) :
    Ensures (fun _ => True) (typeOf · = function.result) (callAt program known depth name values) := by
  cases depth with
  | zero => exact ensures_throw trivial
  | succ depth =>
    rw [callAt, found]
    dsimp only
    split
    · exact ensures_bind (ensures_any _) fun value _ => ensures_pure (typeOf_cast _ _)
    · exact ensures_throw trivial

/-- A call converts nothing if the body of the function has the type of its result. -/
theorem call_unconverted {function : Function} (found : program.function? name = some function)
    (plain : function.parameters = [])
    (typed : Ensures (fun _ => True) (typeOf · = function.result)
      (evalWith (callAt program known depth) known {} function.body)) :
    callAt program known (depth + 1) name [] =
      evalWith (callAt program known depth) known {} function.body := by
  have noParameters : bindParameters function.parameters [] = {} := by rw [plain]; rfl
  calc callAt program known (depth + 1) name []
      = evalWith (callAt program known depth) known {} function.body >>= fun value =>
          pure (value.cast function.result) := by
        rw [call_found found (by rw [plain]; rfl), noParameters]
    _ = evalWith (callAt program known depth) known {} function.body >>= pure :=
        bind_congr_of_ensures typed fun value isTyped => by rw [cast_of_typeOf isTyped]
    _ = evalWith (callAt program known depth) known {} function.body := bind_pure _

/-- Setting a field converts nothing if its function returns values of its type. -/
theorem setFields_unconverted {field : Field}
    (typed : Ensures (fun _ => True) (typeOf · = field.ty) (callAt program known depth field.init []))
    (rest : List Field) :
    setFields program depth known (field :: rest) =
      callAt program known depth field.init [] >>= fun value =>
        setFields program depth (known.insert field.name value) rest := by
  rw [setFields]
  exact bind_congr_of_ensures typed fun value isTyped => by rw [cast_of_typeOf isTyped]

/-! ## Sheets -/

/-- The functions of a program that return doubles. -/
def doubles (program : Program) : List Function := program.functions.filter (·.result = .double)

/-- A symbol stands for a field of its kind, or for a function that returns doubles. -/
def Declared (program : Program) : Symbol → Prop
  | .variable field kind => (program.field? field).map (·.ty) = some (Ty.ofKind kind)
  | .parameter _ => False
  | .function name arity => Callable (doubles program) name arity

/-- The symbols of a table stand for parts of a program. -/
def AllDeclared (program : Program) (table : SymbolTable) : Prop :=
  ∀ {name symbol}, table.get? name = some symbol → Declared program symbol

/-- Lowering a statement declares what it adds to the program. -/
theorem step_declared (step : Step naming before statement expr after)
    (apart : (program.fields.map (·.name)).Nodup) (fields : after.program.fields ⊆ program.fields)
    (functions : after.program.functions ⊆ program.functions)
    (declared : AllDeclared program before.globals) : AllDeclared program after.globals := by
  cases step with
  | assignment shape lowered =>
    rename_i name value
    intro other symbol found
    simp only [SymbolTable.get?_declareVariable] at found
    split at found
    · cases found
      have member : FieldOf naming before.globals name value ∈ program.fields :=
        fields (List.mem_append_right _ List.mem_cons_self)
      have lookup : program.field? (FieldOf naming before.globals name value).name = some _ :=
        find?_of_nodup apart member
      exact congrArg (Option.map (·.ty)) lookup
    · exact declared found
  | definition shape lowered =>
    rename_i name parameters formula
    intro other symbol found
    simp only [SymbolTable.get?_declareFunction] at found
    split at found
    · cases found
      have member : FunctionOf naming before.globals name parameters expr ∈ program.functions :=
        functions (List.mem_append_right _ List.mem_cons_self)
      refine ⟨_, List.mem_filter.mpr ⟨member, ?_⟩, rfl, ?_⟩
      · simp [FunctionOf]
      · simp [FunctionOf]
    · exact declared found
  | expression lowered => exact declared

private theorem steps_declared (steps : Steps naming before statements exprs after)
    (apart : (program.fields.map (·.name)).Nodup) (fields : after.program.fields ⊆ program.fields)
    (functions : after.program.functions ⊆ program.functions)
    (declared : AllDeclared program before.globals) : AllDeclared program after.globals := by
  induction steps with
  | nil => exact declared
  | cons step rest ih =>
    obtain ⟨moreFields, moreFunctions, moreMain, afterIs⟩ := steps_appended rest
    rw [afterIs] at fields functions ih
    refine ih fields functions (step_declared step apart ?_ ?_ declared)
    · exact List.Subset.trans (List.subset_append_left _ _) fields
    · exact List.Subset.trans (List.subset_append_left _ _) functions

/-- The static type of a lowered formula in a program is what was inferred for it. -/
theorem declared_staticType (declared : AllDeclared program table)
    (lowered : Lowers table line formula expr) :
    staticType (typesIn program []) expr = some (Ty.ofKind (table.kindOf formula)) := by
  refine staticType_of_lowers lowered ?_
  intro name generated line found
  obtain ⟨different, known⟩ := (SymbolTable.value_eq_bound_iff ..).mp found
  rw [SymbolTable.kindOf_identifier _ different]
  rcases known with ⟨kind, known⟩ | known
  · rw [known]
    exact declared known
  · exact (declared known).elim

/-- A lowered formula calls only functions that return doubles. -/
theorem declared_callees (declared : AllDeclared program table)
    (lowered : Lowers table line formula expr) (member : name ∈ callees expr) :
    ∃ function ∈ doubles program, function.name = name := by
  have closed : Closed (fun _ => True) (doubles program) (fun _ => True) expr := by
    refine closed_of_lowers lowered (fun _ => trivial) ?_ fun _ _ => trivial
    intro name generated count line found
    exact declared ((SymbolTable.function_eq_user_iff ..).mp found).2
  exact callee_of_closed closed member

/-- In every run, a lowered formula computes values of its static type. -/
theorem ensures_lowered_typed (fieldsApart : (program.fields.map (·.name)).Nodup)
    (functionsApart : (program.functions.map (·.name)).Nodup)
    (declared : AllDeclared program table) (lowered : Lowers table line formula expr)
    (heldInRun : HeldInRun program known) (depth : Nat) :
    Ensures (fun _ => True) (typeOf · = Ty.ofKind (table.kindOf formula))
      (evalWith (callAt program known depth) known {} expr) := by
  refine eval_typed expr (declared_staticType declared lowered) ?_ ?_
  · intro name value held
    exact wellTyped_of_heldInRun fieldsApart heldInRun name value held
  · intro name member values
    obtain ⟨function, inDoubles, rfl⟩ := declared_callees declared lowered member
    obtain ⟨inProgram, returns⟩ := List.mem_filter.mp inDoubles
    have found : program.function? function.name = some function :=
      find?_of_nodup functionsApart inProgram
    have typed := ensures_call_typed found known depth values
    rwa [of_decide_eq_true returns] at typed

/-- **Inferred types are real.** In a lowered sheet whose fields and functions have names of their own,
the field of an assignment has the static type of its formula's expression, and so has the result of its
function; it is a long exactly where an integer is inferred. In every run, the expression computes values
of that type only. So neither the call of the function nor the setting of the field converts anything. -/
theorem inferred_types_are_real (naming : Naming) (namespaceName className : String)
    (statements earlier later : List Statement) (name : String) (value : Formula) (line : Option Nat)
    (final : Lowering)
    (lowered : Lowering.statements naming (start namespaceName className) statements = .ok final)
    (fieldsApart : (final.program.fields.map (·.name)).Nodup)
    (functionsApart : (final.program.functions.map (·.name)).Nodup)
    (split : statements = earlier ++ ⟨.assignment name value, line⟩ :: later) :
    ∃ before field init,
      Lowering.statements naming (start namespaceName className) earlier = .ok before ∧
      final.program.fields[before.program.fields.length]? = some field ∧
      final.program.function? field.init = some init ∧
      value.lower before.globals line = .ok init.body ∧
      staticType (typesIn final.program init.parameters) init.body = some field.ty ∧
      init.result = field.ty ∧
      (field.ty = .long ↔ before.globals.kindOf value = .integer) ∧
      ∀ known depth, HeldInRun final.program known →
        Ensures (fun _ => True) (typeOf · = field.ty)
          (evalWith (callAt final.program known depth) known {} init.body) ∧
        callAt final.program known (depth + 1) field.init [] =
          evalWith (callAt final.program known depth) known {} init.body ∧
        ∀ rest, setFields final.program (depth + 1) known (field :: rest) =
          callAt final.program known (depth + 1) field.init [] >>= fun first =>
            setFields final.program (depth + 1) (known.insert field.name first) rest := by
  subst split
  obtain ⟨before, next, loweredEarlier, loweredHere, loweredLater⟩ := statements_split lowered
  obtain ⟨body, main, loweredValue, rfl⟩ := assignment_of_ok loweredHere
  obtain ⟨exprsEarlier, stepsEarlier⟩ := steps_of_ok loweredEarlier
  obtain ⟨exprsLater, stepsLater⟩ := steps_of_ok loweredLater
  obtain ⟨moreFields, moreFunctions, moreMain, finalIs⟩ := steps_appended stepsLater
  rw [appended_twice] at finalIs
  have lowers := lowers_of_ok value body loweredValue
  have fieldsIn : before.program.fields ⊆ final.program.fields := by
    rw [finalIs]
    exact List.subset_append_left _ _
  have functionsIn : before.program.functions ⊆ final.program.functions := by
    rw [finalIs]
    exact List.subset_append_left _ _
  have declared : AllDeclared final.program before.globals :=
    steps_declared stepsEarlier fieldsApart fieldsIn functionsIn fun found => by cases found
  have found : final.program.function? (InitOf naming before.globals name value body).name =
      some (InitOf naming before.globals name value body) :=
    find?_of_nodup functionsApart (by simp [finalIs, Appended])
  refine ⟨before, FieldOf naming before.globals name value, InitOf naming before.globals name value body,
    loweredEarlier, by simp [finalIs, Appended], found, loweredValue,
    declared_staticType declared lowers, rfl, ofKind_eq_long_iff _, ?_⟩
  intro known depth heldInRun
  have typed := ensures_lowered_typed fieldsApart functionsApart declared lowers heldInRun depth
  have called := call_unconverted found rfl typed
  have calledTyped : Ensures (fun _ => True) (typeOf · = Ty.ofKind (before.globals.kindOf value))
      (callAt final.program known (depth + 1) (InitOf naming before.globals name value body).name []) := by
    rw [called]
    exact typed
  exact ⟨typed, called, setFields_unconverted calledTyped⟩

/-- `n = 2`, `h(t) = n * t`, `n = n / 4` and `n = h(n) - 1`: the kind of `n` changes on the way. -/
def changingKind : List Statement :=
  [⟨.assignment "n" (.number (.integer 2)), some 1⟩,
    ⟨.definition "h" ["t"] (.binary .mul (.identifier "n") (.identifier "t")), some 2⟩,
    ⟨.assignment "n" (.binary .div (.identifier "n") (.number (.integer 4))), some 3⟩,
    ⟨.assignment "n" (.binary .sub (.call "h" [.identifier "n"]) (.number (.integer 1))), some 4⟩]

/-- The first binding of `n` is a long and its second, a quotient of longs, is a double. -/
theorem changing_kind_is_real :
    ∃ final, Lowering.statements {} (start "Sheet" "Program") changingKind = .ok final ∧
      (final.program.fields.map (·.name)).Nodup ∧ (final.program.functions.map (·.name)).Nodup ∧
      (∃ init, final.program.function? "Init_v_n" = some init ∧ init.result = .long ∧
        staticType (typesIn final.program init.parameters) init.body = some .long) ∧
      ∃ init, final.program.function? "Init_v_n_2" = some init ∧ init.result = .double ∧
        ∀ known depth, HeldInRun final.program known → Ensures (fun _ => True) (typeOf · = .double)
          (evalWith (callAt final.program known depth) known {} init.body) := by
  refine ⟨_, rfl, ?_⟩
  have fieldsApart : (["v_n", "v_n_2", "v_n_3"] : List String).Nodup := by decide
  have functionsApart : (["Init_v_n", "f_h", "Init_v_n_2", "Init_v_n_3"] : List String).Nodup := by
    decide
  refine ⟨fieldsApart, functionsApart, ?_, ?_⟩
  · obtain ⟨before, field, init, early, place, found, -, static, result, -⟩ :=
      inferred_types_are_real {} "Sheet" "Program" changingKind [] (changingKind.drop 1) "n"
        (.number (.integer 2)) (some 1) _ rfl fieldsApart functionsApart rfl
    cases early
    cases place
    exact ⟨init, found, result, static⟩
  · obtain ⟨before, field, init, early, place, found, -, -, result, -, real⟩ :=
      inferred_types_are_real {} "Sheet" "Program" changingKind (changingKind.take 2)
        (changingKind.drop 3) "n" (.binary .div (.identifier "n") (.number (.integer 4))) (some 3) _
        rfl fieldsApart functionsApart rfl
    cases early
    cases place
    exact ⟨init, found, result, fun known depth heldInRun => (real known depth heldInRun).1⟩

end FormulaSheet.StaticTypes
