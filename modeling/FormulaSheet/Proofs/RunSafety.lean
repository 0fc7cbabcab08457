import Mathlib.Data.List.Nodup
import FormulaSheet.Proofs.ResolutionAgreement
import FormulaSheet.Proofs.RunOutcomes

/-! Lowered programs cannot go wrong. Every expression of one is `Closed`: its names are set, its
functions stand in front of it, and its operations fit their operands. Functions form layers, each
calling only what is below, so that the first function with a name is found below its callers even
when names are shared. What is left to fail is an input that ends too early, and a call that finds
another function of the same name. -/
namespace FormulaSheet.RunSafety
open Target LoweringSteps RunOutcomes ResolutionAgreement

/-! ## Closed expressions -/

/-- Among some functions there is one with a name and a number of parameters. -/
def Callable (functions : List Function) (name : String) (count : Nat) : Prop :=
  ∃ function ∈ functions, function.name = name ∧ function.parameters.length = count

/-- An expression that uses only names that are bound, calls only functions among the given ones and
asks only for wanted names. Arithmetic is lowered arithmetic: only a double is divided. -/
inductive Closed (bound : String → Prop) (functions : List Function) (wanted : String → Prop) :
    Expr → Prop where
  | long (value : Int64) : Closed bound functions wanted (.long value)
  | double (value : Float) : Closed bound functions wanted (.double value)
  | pi : Closed bound functions wanted .pi
  | reference (known : bound name) : Closed bound functions wanted (.variable name)
  | arithmetic (op : BinaryOp) (left : Closed bound functions wanted lhs)
      (right : Closed bound functions wanted rhs) :
      Closed bound functions wanted (op.lower lhs rhs)
  | neg (inner : Closed bound functions wanted operand) :
      Closed bound functions wanted (.neg operand)
  | ask (known : wanted name) :
      Closed bound functions wanted (.call (.helper .readNumber) [.string name])
  | builtin (function : Builtin) (complete : arguments.length = function.arity)
      (each : ∀ argument ∈ arguments, Closed bound functions wanted argument) :
      Closed bound functions wanted (.call function.callee arguments)
  | user (known : Callable functions name arguments.length)
      (each : ∀ argument ∈ arguments, Closed bound functions wanted argument) :
      Closed bound functions wanted (.call (.user name) arguments)

/-- An expression stays closed where more is bound and more functions stand in front of it. -/
theorem closed_mono (closed : Closed bound functions wanted expr)
    (names : ∀ name, bound name → bound' name) (more : functions ⊆ functions') :
    Closed bound' functions' wanted expr := by
  induction closed with
  | long value => exact .long value
  | double value => exact .double value
  | pi => exact .pi
  | reference known => exact .reference (names _ known)
  | arithmetic op _ _ left right => exact .arithmetic op left right
  | neg _ inner => exact .neg inner
  | ask known => exact .ask known
  | builtin function complete _ each => exact .builtin function complete each
  | user known _ each =>
    obtain ⟨function, member, named⟩ := known
    exact .user ⟨function, more member, named⟩ each

private theorem mem_askedAll (member : expr ∈ exprs) (found : name ∈ asked expr) :
    name ∈ askedAll exprs := by
  induction exprs with
  | nil => cases member
  | cons first rest ih =>
    rw [askedAll, List.mem_append]
    rcases List.mem_cons.mp member with rfl | member
    · exact .inl found
    · exact .inr (ih member)

/-- A formula is lowered to an expression closed over the names of its scope. -/
theorem closed_of_lowers (lowered : Lowers scope line formula expr)
    (names : ∀ {name generated line}, scope.value name line = .ok (.bound generated) →
      bound generated)
    (calls : ∀ {name generated count line}, scope.function name count line = .ok (.user generated) →
      Callable functions generated count)
    (asks : ∀ name ∈ asked expr, wanted name) : Closed bound functions wanted expr := by
  induction lowered with
  | integer value => exact .long value
  | float value => exact .double value
  | identifier found =>
    rename_i name ref
    cases ref with
    | pi => exact .pi
    | bound generated => exact .reference (names found)
    | free => exact .ask (asks name (by simp [ValueRef.expr, asked]))
  | binary op _ _ left right =>
    simp only [asked_lowered_binary, List.mem_append] at asks
    exact .arithmetic op (left fun name member => asks name (.inl member))
      (right fun name member => asks name (.inr member))
  | plus _ inner => exact inner asks
  | minus _ inner => exact .neg (inner asks)
  | call found paired inner each =>
    rename_i name function arguments exprs
    rw [asked_call] at asks
    have closed : ∀ expr ∈ exprs, Closed bound functions wanted expr := by
      intro expr member
      obtain ⟨argument, pair⟩ : ∃ argument, (argument, expr) ∈ arguments.zip exprs := by
        obtain ⟨index, inside, rfl⟩ := List.mem_iff_getElem.mp member
        exact ⟨arguments[index], List.mem_iff_getElem.mpr ⟨index, by simp; omega, by simp⟩⟩
      exact each pair fun name found => asks name (mem_askedAll member found)
    cases function with
    | builtin function =>
      rw [SymbolTable.function_eq_builtin_iff] at found
      exact .builtin function (paired.symm.trans found.2) closed
    | user generated => exact .user (paired ▸ calls found) closed

/-! ## Running closed expressions -/

private theorem ensures_evalAll {call : String → List Value → Run Value}
    {fields parameters : Bindings Value} {exprs : List Expr}
    (each : ∀ expr ∈ exprs, Ensures allowed (fun _ => True) (evalWith call fields parameters expr)) :
    Ensures allowed (fun values => values.length = exprs.length)
      (evalAllWith call fields parameters exprs) := by
  induction exprs with
  | nil => exact ensures_pure rfl
  | cons first rest ih =>
    rw [evalAllWith]
    refine ensures_bind (each first List.mem_cons_self) fun value _ => ?_
    refine ensures_bind (ih fun expr member => each expr (List.mem_cons_of_mem _ member)) ?_
    intro values counted
    exact ensures_pure (by simp [counted])

/-- A closed expression runs without a fault of its own. -/
theorem ensures_eval {call : String → List Value → Run Value}
    {fields parameters : Bindings Value} (closed : Closed bound functions wanted expr)
    (names : ∀ name, bound name → (parameters.get? name <|> fields.get? name).isSome)
    (calls : ∀ name values, Callable functions name values.length →
      Ensures allowed (fun _ => True) (call name values))
    (asks : ∀ name, wanted name → allowed (.noInput name)) :
    Ensures allowed (fun _ => True) (evalWith call fields parameters expr) := by
  induction closed with
  | long value => rw [evalWith]; exact ensures_pure trivial
  | double value => rw [evalWith]; exact ensures_pure trivial
  | pi => rw [evalWith]; exact ensures_pure trivial
  | reference known =>
    obtain ⟨value, found⟩ := Option.isSome_iff_exists.mp (names _ known)
    rw [evalWith, found]
    exact ensures_pure trivial
  | arithmetic op _ _ left right =>
    rw [eval_arithmetic]
    exact ensures_bind left fun a _ => ensures_bind right fun b _ => ensures_pure trivial
  | neg _ inner =>
    rw [evalWith]
    exact ensures_bind inner fun a _ => ensures_pure trivial
  | ask known =>
    rw [evalWith]
    exact ensures_bind (ensures_readNumber (asks _ known)) fun a _ => ensures_pure trivial
  | builtin function complete _ each =>
    rw [eval_call _ (builtin_callee_ne_readNumber function)]
    refine ensures_bind (ensures_evalAll each) fun values counted => ?_
    obtain ⟨number, computed, -⟩ := applied_builtin function (counted.trans complete)
    rw [computed]
    exact ensures_pure trivial
  | user known _ each =>
    rw [eval_call _ (by simp)]
    refine ensures_bind (ensures_evalAll each) fun values counted => ?_
    exact calls _ values (counted ▸ known)

/-! ## Layers of functions -/

/-- Fields and functions in the order in which they were added: the body of a function is closed over
its own parameters, the fields and the functions in front of it. -/
inductive Layered (wanted : String → Prop) : List Field → List Function → Prop where
  | nil : Layered wanted [] []
  | function (below : Layered wanted fields functions)
      (closed : Closed (fun name => name ∈ function.parameters ∨ name ∈ fields.map (·.name))
        functions wanted function.body) :
      Layered wanted fields (functions ++ [function])
  | field (below : Layered wanted fields functions) (field : Field) :
      Layered wanted (fields ++ [field]) functions

/-- Two functions of a program share a name and take different numbers of arguments. -/
def Clash (program : Program) (expected found : Nat) : Prop :=
  ∃ first ∈ program.functions, ∃ second ∈ program.functions, first.name = second.name ∧
    first.parameters.length = expected ∧ second.parameters.length = found ∧ expected ≠ found

/-- What can end the run of a lowered program: the input is used up while a wanted name is asked for,
or a call finds a function with the right name and another number of parameters. -/
def Expected (program : Program) (wanted : String → Prop) : RunFault → Prop
  | .noInput name => wanted name
  | .argumentCount expected found => Clash program expected found
  | _ => False

/-- Some fields have values. -/
def AllSet (fields : List Field) (known : Bindings Value) : Prop :=
  ∀ name ∈ fields.map (·.name), (known.get? name).isSome

private theorem bound_parameter {parameters : List String} {values : List Value}
    (complete : parameters.length = values.length) (member : name ∈ parameters) :
    ((bindParameters parameters values).get? name).isSome := by
  have keeps (pairs : List (String × Value)) (bound : Bindings Value)
      (known : name ∈ pairs.map Prod.fst ∨ (bound.get? name).isSome) :
      ((pairs.foldl (fun bound pair => bound.insert pair.1 (pair.2.cast .double)) bound).get? name).isSome := by
    induction pairs generalizing bound with
    | nil => simpa using known
    | cons pair rest ih =>
      refine ih _ ?_
      rw [Bindings.get?_insert]
      by_cases same : pair.1 = name
      · simp [same]
      · have different : name ≠ pair.1 := fun eq => same eq.symm
        simpa [same, different] using known
  exact keeps _ _ (.inl (by rw [List.map_fst_zip (by omega)]; exact member))

/-- A function of a layer can be called with as many arguments as it has parameters. The first
function with its name is found, in the same layer or below. -/
theorem ensures_call (layered : Layered wanted fields functions)
    (included : functions <+: program.functions) (set : AllSet fields known)
    (deep : functions.length ≤ depth) (values : List Value)
    (callable : Callable functions name values.length) :
    Ensures (Expected program wanted) (fun _ => True) (callAt program known depth name values) := by
  induction layered generalizing depth name values with
  | nil =>
    obtain ⟨function, member, -⟩ := callable
    cases member
  | field below field ih =>
    exact ih included (fun name member => set name (by simp [member])) deep values callable
  | @function fields functions function below closed ih =>
    obtain ⟨later, programIs⟩ := included
    have includedBelow : functions <+: program.functions := ⟨[function] ++ later, by simp [← programIs]⟩
    obtain ⟨target, member, named, counted⟩ := callable
    -- The call was generated for `target`, but the machine takes the first function with the name.
    cases found : functions.find? (·.name = name) with
    | some earlier =>
      have earlierMember := List.mem_of_find?_eq_some found
      have earlierName : earlier.name = name := by simpa using List.find?_some found
      by_cases fits : earlier.parameters.length = values.length
      · exact ih includedBelow set (by simp at deep; omega) values
          ⟨earlier, earlierMember, earlierName, fits⟩
      · have lookup : program.function? name = some earlier := by
          simp [Program.function?, ← programIs, found]
        cases depth with
        | zero => simp at deep
        | succ depth =>
          rw [callAt, lookup]
          simp only [fits, ↓reduceIte]
          refine ensures_throw ⟨earlier, includedBelow.subset earlierMember, target, ?_, ?_⟩
          · rw [← programIs]
            exact List.mem_append_left _ member
          · exact ⟨earlierName.trans named.symm, rfl, counted, fits⟩
    | none =>
      have own : target = function := by
        rcases List.mem_append.mp member with below | last
        · have absent := List.find?_eq_none.mp found target below
          simp [named] at absent
        · simpa using last
      subst own
      have lookup : program.function? name = some target := by
        simp [Program.function?, ← programIs, found, named]
      cases depth with
      | zero => simp at deep
      | succ depth =>
        rw [callAt, lookup]
        simp only [counted, ↓reduceIte]
        refine ensures_bind (ensures_eval closed ?_ ?_ fun _ wanted => wanted) fun value _ =>
          ensures_pure trivial
        · rintro other (parameter | field)
          · simp [bound_parameter counted parameter]
          · simp [set other field]
        · intro other otherValues otherCallable
          exact ih includedBelow set (by simp at deep; omega) otherValues otherCallable

/-! ## Sheets -/

/-- A symbol refers to a part of a program: a field, or a function with as many parameters. -/
def Refers (program : Program) : Symbol → Prop
  | .variable field _ => field ∈ program.fields.map (·.name)
  | .parameter _ => False
  | .function name arity => Callable program.functions name arity

/-- What holds of a program at every point of lowering: its functions are layered, its main routine
is closed, and the bound names stand for its fields and functions. -/
structure Ready (wanted : String → Prop) (state : Lowering) : Prop where
  layered : Layered wanted state.program.fields state.program.functions
  main : ∀ {label value}, .value label value ∈ state.program.main →
    Closed (· ∈ state.program.fields.map (·.name)) state.program.functions wanted value
  refers : ∀ {name symbol}, state.globals.get? name = some symbol → Refers state.program symbol

theorem ready_start (namespaceName className : String) :
    Ready wanted (start namespaceName className) where
  layered := .nil
  main member := by cases member
  refers found := by cases found

/-- At a point of lowering, a formula is closed over the fields and functions so far. -/
theorem ready_closed (ready : Ready wanted state)
    (lowered : Lowers state.globals line formula expr) (asks : ∀ name ∈ asked expr, wanted name) :
    Closed (· ∈ state.program.fields.map (·.name)) state.program.functions wanted expr := by
  refine closed_of_lowers lowered ?_ ?_ asks
  · intro name generated line found
    rcases ((SymbolTable.value_eq_bound_iff ..).mp found).2 with ⟨kind, known⟩ | known
    · exact ready.refers known
    · exact (ready.refers known).elim
  · intro name generated count line found
    exact ready.refers ((SymbolTable.function_eq_user_iff ..).mp found).2

/-- The same inside a function, where its parameters are bound too. -/
theorem ready_closed_inside (ready : Ready wanted state)
    (lowered : Lowers (state.globals.enterFunction naming parameters) line formula expr)
    (asks : ∀ name ∈ asked expr, wanted name) :
    Closed (fun name => name ∈ parameters.map naming.parameter ∨
      name ∈ state.program.fields.map (·.name)) state.program.functions wanted expr := by
  refine closed_of_lowers lowered ?_ ?_ asks
  · intro name generated line found
    have known := ((SymbolTable.value_eq_bound_iff ..).mp found).2
    rw [SymbolTable.get?_enterFunction] at known
    by_cases inner : name ∈ parameters
    · left
      rcases known with ⟨kind, known⟩ | known
      · simp [inner] at known
      · rw [if_pos inner] at known
        cases known
        exact List.mem_map_of_mem inner
    · right
      rw [if_neg inner] at known
      rcases known with ⟨kind, known⟩ | known
      · exact ready.refers known
      · exact (ready.refers known).elim
  · intro name generated count line found
    have known := ((SymbolTable.function_eq_user_iff ..).mp found).2
    rw [SymbolTable.get?_enterFunction] at known
    split at known
    · cases known
    · exact ready.refers known

/-- What a symbol refers to stays when a program grows. -/
private theorem refers_appended (refers : Refers program symbol) :
    Refers (Appended program fields functions actions) symbol := by
  rcases symbol with ⟨field, kind⟩ | ⟨name⟩ | ⟨name, arity⟩
  · simp only [Refers, Appended, List.map_append, List.mem_append]
    exact .inl refers
  · exact refers
  · obtain ⟨function, member, named⟩ := refers
    exact ⟨function, List.mem_append_left _ member, named⟩

/-- The main routine of a grown program is closed if what is new in it is. -/
private theorem main_appended
    (old : ∀ {label value}, .value label value ∈ program.main →
      Closed (· ∈ program.fields.map (·.name)) program.functions wanted value)
    (new : ∀ {label value}, .value label value ∈ actions →
      Closed (· ∈ (program.fields ++ fields).map (·.name)) (program.functions ++ functions) wanted
        value)
    (member : .value label value ∈ (Appended program fields functions actions).main) :
    Closed (· ∈ (Appended program fields functions actions).fields.map (·.name))
      (Appended program fields functions actions).functions wanted value := by
  rcases List.mem_append.mp member with inside | added
  · refine closed_mono (old inside) ?_ (List.subset_append_left _ _)
    intro name known
    simp only [Appended, List.map_append, List.mem_append]
    exact .inl known
  · exact new added

/-- Lowering a statement keeps a program ready. -/
theorem step_ready (step : Step naming before statement expr after) (ready : Ready wanted before)
    (asks : ∀ name ∈ asked expr, wanted name) : Ready wanted after := by
  cases step with
  | assignment shape lowered =>
    have closed := ready_closed ready lowered asks
    refine ⟨?_, main_appended ready.main ?_, ?_⟩
    · exact .field (.function ready.layered (closed_mono closed (fun _ => .inr) fun _ => id)) _
    · intro label value added
      simp only [List.mem_cons, List.not_mem_nil, or_false, reduceCtorEq, false_or] at added
      cases added
      exact .reference (by simp)
    · intro other symbol known
      simp only [SymbolTable.get?_declareVariable] at known
      split at known
      · cases known
        simp [Refers, Appended, FieldOf]
      · exact refers_appended (ready.refers known)
  | definition shape lowered =>
    have closed := ready_closed_inside ready lowered asks
    refine ⟨?_, main_appended ready.main ?_, ?_⟩
    · simpa [Appended] using Layered.function ready.layered closed
    · intro label value added
      simp at added
    · intro other symbol known
      simp only [SymbolTable.get?_declareFunction] at known
      split at known
      · cases known
        exact ⟨_, List.mem_append_right _ List.mem_cons_self, rfl, by simp [FunctionOf]⟩
      · exact refers_appended (ready.refers known)
  | expression lowered =>
    have closed := ready_closed ready lowered asks
    refine ⟨?_, main_appended ready.main ?_, fun known => refers_appended (ready.refers known)⟩
    · simpa [Appended] using ready.layered
    · intro label value added
      simp only [List.mem_cons, List.not_mem_nil, or_false, reduceCtorEq, false_or] at added
      cases added
      simpa using closed

theorem steps_ready (steps : Steps naming before statements exprs after) (ready : Ready wanted before)
    (asks : ∀ expr ∈ exprs, ∀ name ∈ asked expr, wanted name) : Ready wanted after := by
  induction steps with
  | nil => exact ready
  | cons step rest ih =>
    obtain ⟨asksFirst, asksLater⟩ := List.forall_mem_cons.mp asks
    exact ih (step_ready step ready asksFirst) asksLater

/-- The fields of a sheet are set one after the other, each from those before it. -/
theorem ensures_setFields (steps : Steps naming before statements exprs after)
    (ready : Ready wanted before) (asks : ∀ expr ∈ exprs, ∀ name ∈ asked expr, wanted name)
    (included : after.program.functions <+: program.functions)
    (deep : program.functions.length ≤ depth) :
    ∃ added, after.program.fields = before.program.fields ++ added ∧
      ∀ known, AllSet before.program.fields known →
        Ensures (Expected program wanted) (AllSet after.program.fields)
          (setFields program depth known added) := by
  induction steps with
  | nil => exact ⟨[], by simp, fun known set => ensures_pure set⟩
  | @cons before first expr middle later exprs after step rest ih =>
    obtain ⟨asksFirst, asksLater⟩ := List.forall_mem_cons.mp asks
    obtain ⟨added, fieldsAre, sets⟩ := ih (step_ready step ready asksFirst) asksLater included
    cases step with
    | assignment shape lowered =>
      rename_i name value
      refine ⟨FieldOf naming before.globals name value :: added, ?_, ?_⟩
      · rw [fieldsAre]
        simp [Appended]
      intro known set
      have closed := ready_closed ready lowered asksFirst
      have layered : Layered wanted before.program.fields
          (before.program.functions ++ [InitOf naming before.globals name value expr]) :=
        .function ready.layered (closed_mono closed (fun _ => .inr) fun _ => id)
      obtain ⟨moreFields, moreFunctions, moreMain, afterIs⟩ := steps_appended rest
      have includedHere : before.program.functions ++
          [InitOf naming before.globals name value expr] <+: program.functions := by
        refine .trans ?_ included
        rw [afterIs]
        exact List.prefix_append _ _
      rw [setFields]
      -- The field's own function is the newest one and sees only fields that are set.
      refine ensures_bind (ensures_call layered includedHere set
        (Nat.le_trans includedHere.length_le deep) [] ?_) fun result _ => sets _ ?_
      · exact ⟨_, List.mem_append_right _ List.mem_cons_self, rfl, rfl⟩
      · intro other member
        rw [Bindings.get?_insert]
        split
        · rfl
        · rename_i different
          simp only [Appended, List.map_append, List.map_cons, List.map_nil, List.mem_append,
            List.mem_cons, List.not_mem_nil, or_false] at member
          exact set other (member.resolve_right fun same => different same.symm)
    | definition shape lowered =>
      exact ⟨added, by simpa [Appended] using fieldsAre, by simpa [Appended] using sets⟩
    | expression lowered =>
      exact ⟨added, by simpa [Appended] using fieldsAre, by simpa [Appended] using sets⟩

/-- With all fields set, the main routine runs to its end. -/
theorem ensures_performAll (layered : Layered wanted program.fields program.functions)
    (set : AllSet program.fields known) (deep : program.functions.length ≤ depth)
    (closed : ∀ {label value}, .value label value ∈ actions →
      Closed (· ∈ program.fields.map (·.name)) program.functions wanted value) :
    Ensures (Expected program wanted) (fun _ => True) (performAll program depth known actions) := by
  induction actions with
  | nil => exact ensures_pure trivial
  | cons action rest ih =>
    have performed : Ensures (Expected program wanted) (fun _ => True)
        (perform program depth known action) := by
      cases action with
      | line text => exact ensures_print _
      | value label value =>
        rw [perform]
        refine ensures_bind (ensures_eval (closed List.mem_cons_self) ?_ ?_ fun _ wanted => wanted)
          fun result _ => ?_
        · intro name member
          simp [set name member]
        · intro name values callable
          exact ensures_call layered (List.prefix_refl _) set deep values callable
        · cases label <;> exact ensures_print _
    rw [performAll]
    exact ensures_bind performed fun _ _ => ih fun member => closed (List.mem_cons_of_mem _ member)

/-- A run of a lowered sheet ends well, or with one of the expected faults. -/
theorem ensures_execute (steps : Steps naming (start namespaceName className) statements exprs final)
    (asks : ∀ expr ∈ exprs, ∀ name ∈ asked expr, wanted name) :
    Ensures (Expected final.program wanted) (fun _ => True) final.program.execute := by
  have deep : final.program.functions.length ≤ final.program.callDepth := Nat.le_add_right _ _
  have ready := steps_ready steps (ready_start namespaceName className) asks
  obtain ⟨added, fieldsAre, sets⟩ := ensures_setFields steps (ready_start namespaceName className)
    asks (List.prefix_refl _) deep
  have all : added = final.program.fields := by simp [fieldsAre, start]
  rw [all] at sets
  rw [Program.execute]
  refine ensures_bind (sets {} ?_) fun known set =>
    ensures_performAll ready.layered set deep ready.main
  intro name member
  simp [start] at member

/-- What holds of every fault of a run holds of the fault that its outcome reports. -/
theorem fault_of_ensures {program : Program}
    (ended : Ensures allowed (fun _ => True) program.execute)
    (failed : (program.run input).fault = some fault) : allowed fault := by
  have ran := ended ⟨input, ""⟩
  unfold Program.run at failed
  split at failed <;> simp_all

private theorem no_clash_of_nodup {program : Program} (apart : (program.functions.map (·.name)).Nodup) :
    ¬ Clash program expected found := by
  rintro ⟨first, memberFirst, second, memberSecond, sameName, rfl, rfl, different⟩
  exact different (by rw [List.inj_on_of_nodup_map apart memberFirst memberSecond sameName])

/-- **Lowered programs cannot go wrong.** Whatever the stems of names and the input, a run of a lowered
sheet that does not end well has used up its input at a name that resolution reports as free, or has
called a function that shares its name with one of another number of parameters. So it ends well if no
name is free and no two functions share a name. -/
theorem lowered_program_cannot_go_wrong (naming : Naming) (namespaceName className : String)
    (statements : List Statement) (final : Lowering)
    (lowered : Lowering.statements naming (start namespaceName className) statements = .ok final)
    (input : List String) :
    (∀ fault, (final.program.run input).fault = some fault →
      (∃ name ∈ (Resolution.ofStatements naming statements).freeVariables,
        fault = .noInput name ∧ fault.message = s!"No input for {name}.") ∨
      ∃ expected found, fault = .argumentCount expected found ∧
        fault.message = s!"Expected {expected} arguments, received {found}." ∧
        Clash final.program expected found) ∧
    ((Resolution.ofStatements naming statements).freeVariables = [] →
      (final.program.functions.map (·.name)).Nodup → (final.program.run input).fault = none) := by
  obtain ⟨exprs, steps⟩ := steps_of_ok lowered
  have asks : ∀ expr ∈ exprs, ∀ name ∈ asked expr,
      name ∈ (Resolution.ofStatements naming statements).freeVariables := by
    intro expr member name found
    rw [ofStatements_of_steps steps, List.mem_eraseDups]
    exact List.mem_flatMap.mpr ⟨expr, member, found⟩
  have ended := ensures_execute steps asks
  constructor
  · intro fault failed
    have expected := fault_of_ensures ended failed
    cases fault with
    | noInput name => exact .inl ⟨name, expected, rfl, rfl⟩
    | argumentCount takes given => exact .inr ⟨takes, given, rfl, rfl, expected⟩
    | _ => exact expected.elim
  · intro closed apart
    cases failed : (final.program.run input).fault with
    | none => rfl
    | some fault =>
      have expected := fault_of_ensures ended failed
      rw [closed] at expected
      cases fault with
      | noInput name => cases expected
      | argumentCount takes given => exact (no_clash_of_nodup apart expected).elim
      | _ => exact expected.elim

/-- `a = x`, `a(t) = t / a` and `a(2)`. -/
def reusedName : List Statement :=
  [⟨.assignment "a" (.identifier "x"), some 1⟩,
    ⟨.definition "a" ["t"] (.binary .div (.identifier "t") (.identifier "a")), some 2⟩,
    ⟨.call "a" [.number (.integer 2)], some 3⟩]

/-- `a = 0`, `g(t) = t / a` and `g(2)`. -/
def zeroDivisor : List Statement :=
  [⟨.assignment "a" (.number (.integer 0)), some 1⟩,
    ⟨.definition "g" ["t"] (.binary .div (.identifier "t") (.identifier "a")), some 2⟩,
    ⟨.call "g" [.number (.integer 2)], some 3⟩]

/-- Without stems, the initializer of `a` and the function `a` share a name. The run asks for `x`, and
with an answer it calls the one for the other. A quotient by an integer zero ends well. -/
theorem reused_name_asks_or_clashes :
    (∃ final, Lowering.statements ⟨"", "", ""⟩ (start "Sheet" "Program") reusedName = .ok final ∧
      ((final.program.run []).fault = some (.noInput "x") ∧
        "x" ∈ (Resolution.ofStatements ⟨"", "", ""⟩ reusedName).freeVariables) ∧
      (final.program.run ["1"]).fault = some (.argumentCount 0 1) ∧ Clash final.program 0 1) ∧
    ∃ final, Lowering.statements {} (start "Sheet" "Program") zeroDivisor = .ok final ∧
      (final.program.run []).fault = none := by
  constructor
  · have safe := lowered_program_cannot_go_wrong ⟨"", "", ""⟩ "Sheet" "Program" reusedName _ rfl
    refine ⟨_, rfl, ⟨rfl, ?_⟩, rfl, ?_⟩
    · rcases (safe []).1 (.noInput "x") rfl with ⟨name, free, same, -⟩ | ⟨takes, given, same, -⟩
      · cases same
        exact free
      · cases same
    · rcases (safe ["1"]).1 (.argumentCount 0 1) rfl with
        ⟨name, free, same, -⟩ | ⟨takes, given, same, -, clash⟩
      · cases same
      · cases same
        exact clash
  · have safe := lowered_program_cannot_go_wrong {} "Sheet" "Program" zeroDivisor _ rfl []
    exact ⟨_, rfl, safe.2 (by decide +kernel) (by decide +kernel)⟩

end FormulaSheet.RunSafety
