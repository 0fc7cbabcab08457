import FormulaSheet.Proofs.RunSafety

/-! The calls of a lowered program go backwards. The machine finds a function by the first that has its
name, whatever other functions share it, and that one always stands in front of the function that
calls it. So calls nest no deeper than there are functions, and a limit on their depth is never felt.
A program that was not lowered may call in circles. -/
namespace FormulaSheet.CallOrder
open Target LoweringSteps RunOutcomes RunSafety

/-! ## Calls of an expression -/

mutual

/-- The functions of the program that an expression calls, from left to right. -/
def callees : Expr → List String
  | .long _ | .double _ | .string _ | .variable _ | .pi => []
  | .binary _ lhs rhs => callees lhs ++ callees rhs
  | .neg operand | .cast _ operand => callees operand
  | .call (.user name) arguments => name :: calleesAll arguments
  | .call _ arguments => calleesAll arguments

def calleesAll : List Expr → List String
  | [] => []
  | first :: rest => callees first ++ calleesAll rest

end

@[simp]
theorem callees_lowered_binary (op : BinaryOp) (a b : Expr) :
    callees (op.lower a b) = callees a ++ callees b := by
  cases op <;> simp [BinaryOp.lower, callees]

@[simp]
theorem callees_builtin (function : Builtin) (arguments : List Expr) :
    callees (.call function.callee arguments) = calleesAll arguments := by
  cases function <;> simp [Builtin.callee, callees]

private theorem mem_calleesAll : name ∈ calleesAll exprs ↔ ∃ expr ∈ exprs, name ∈ callees expr := by
  induction exprs with
  | nil => simp [calleesAll]
  | cons first rest ih => simp [calleesAll, ih]

/-- A closed expression calls only functions that it may call. -/
theorem callee_of_closed (closed : Closed bound functions wanted expr) (member : name ∈ callees expr) :
    ∃ function ∈ functions, function.name = name := by
  induction closed with
  | long value => simp [callees] at member
  | double value => simp [callees] at member
  | pi => simp [callees] at member
  | reference known => simp [callees] at member
  | ask known => simp [callees, calleesAll] at member
  | arithmetic op _ _ left right =>
    rw [callees_lowered_binary, List.mem_append] at member
    exact member.elim left right
  | neg _ inner =>
    rw [callees] at member
    exact inner member
  | builtin function complete _ each =>
    rw [callees_builtin, mem_calleesAll] at member
    obtain ⟨argument, inside, member⟩ := member
    exact each argument inside member
  | user known _ each =>
    rw [callees, List.mem_cons, mem_calleesAll] at member
    rcases member with rfl | ⟨argument, inside, member⟩
    · obtain ⟨function, inside, named, -⟩ := known
      exact ⟨function, inside, named⟩
    · exact each argument inside member

section Evaluation

variable {call call' : String → List Value → Run Value} {fields parameters : Bindings Value}

mutual

/-- An expression depends only on what the functions that it calls do. -/
theorem eval_congr (expr : Expr)
    (same : ∀ name ∈ callees expr, call name = call' name) :
    evalWith call fields parameters expr = evalWith call' fields parameters expr := by
  cases expr with
  | long value => simp only [evalWith]
  | double value => simp only [evalWith]
  | string text => simp only [evalWith]
  | «variable» name => simp only [evalWith]
  | pi => simp only [evalWith]
  | binary op lhs rhs =>
    simp only [callees, List.mem_append] at same
    rw [evalWith, evalWith, eval_congr lhs fun name member => same name (.inl member),
      eval_congr rhs fun name member => same name (.inr member)]
  | neg operand => rw [evalWith, evalWith, eval_congr operand same]
  | cast ty operand => rw [evalWith, evalWith, eval_congr operand same]
  | call callee arguments =>
    by_cases asks : callee = .helper .readNumber
    · subst asks
      unfold evalWith
      rfl
    · rw [eval_call callee asks, eval_call callee asks]
      cases callee with
      | math function => rw [evalAll_congr arguments same]; rfl
      | helper helper => rw [evalAll_congr arguments same]; rfl
      | user name =>
        obtain ⟨first, others⟩ := List.forall_mem_cons.mp same
        have applies : applied call (.user name) = applied call' (.user name) := first
        rw [evalAll_congr arguments others, applies]

private theorem evalAll_congr (exprs : List Expr)
    (same : ∀ name ∈ calleesAll exprs, call name = call' name) :
    evalAllWith call fields parameters exprs = evalAllWith call' fields parameters exprs := by
  cases exprs with
  | nil => simp only [evalAllWith]
  | cons first rest =>
    simp only [calleesAll, List.mem_append] at same
    rw [evalAllWith, evalAllWith, eval_congr first fun name member => same name (.inl member),
      evalAll_congr rest fun name member => same name (.inr member)]

end

end Evaluation

/-! ## Programs that call backwards -/

/-- The first function with a name stands at some place of a program. -/
def Resolves (program : Program) (name : String) (index : Nat) : Prop :=
  program.functions.findIdx? (·.name = name) = some index

/-- The machine finds the function at that place. -/
theorem function?_of_resolves (resolves : Resolves program name index) :
    ∃ function, program.functions[index]? = some function ∧ program.function? name = some function := by
  obtain ⟨inside, named, first⟩ := List.findIdx?_eq_some_iff_getElem.mp resolves
  refine ⟨program.functions[index], by simp [inside], ?_⟩
  exact List.find?_eq_some_iff_getElem.mpr ⟨named, index, inside, rfl, fun j below => by simpa using first j below⟩

private theorem resolves_of_mem {function : Function} (member : function ∈ program.functions)
    (named : function.name = name) : ∃ index, Resolves program name index := by
  have found : (program.functions.findIdx? (·.name = name)).isSome := by
    rw [List.findIdx?_isSome, List.any_eq_true]
    exact ⟨function, member, by simp [named]⟩
  exact Option.isSome_iff_exists.mp found

/-- A name resolves in front of any function that has it. -/
theorem resolves_below {functions : List Function} {function : Function}
    (included : functions <+: program.functions) (member : function ∈ functions)
    (named : function.name = name) : ∃ index < functions.length, Resolves program name index := by
  obtain ⟨later, programIs⟩ := included
  have found : (functions.findIdx? (·.name = name)).isSome := by
    rw [List.findIdx?_isSome, List.any_eq_true]
    exact ⟨function, member, by simp [named]⟩
  obtain ⟨index, first⟩ := Option.isSome_iff_exists.mp found
  refine ⟨index, (List.findIdx?_eq_some_iff_getElem.mp first).1, ?_⟩
  rw [Resolves, ← programIs, List.findIdx?_append, first]
  rfl

/-- Every function calls only functions in front of it. -/
def CallsBackwards (program : Program) : Prop :=
  ∀ {index function}, program.functions[index]? = some function →
    ∀ name ∈ callees function.body, ∃ earlier < index, Resolves program name earlier

/-- A call does the same under all limits that lie above the place of the function. The induction is on
that place: the functions called from it stand below. -/
theorem call_congr (backwards : CallsBackwards program) (known : Bindings Value)
    (resolves : Resolves program name index) (deep : index < depth) (deep' : index < depth') :
    callAt program known depth name = callAt program known depth' name := by
  induction index using Nat.strongRecOn generalizing depth depth' name with
  | ind index ih =>
    obtain ⟨function, place, found⟩ := function?_of_resolves resolves
    obtain ⟨depth, rfl⟩ := Nat.exists_eq_add_one_of_ne_zero (Nat.ne_zero_of_lt deep)
    obtain ⟨depth', rfl⟩ := Nat.exists_eq_add_one_of_ne_zero (Nat.ne_zero_of_lt deep')
    funext values
    rw [callAt, callAt, found]
    have body : evalWith (callAt program known depth) known
          (bindParameters function.parameters values) function.body =
        evalWith (callAt program known depth') known
          (bindParameters function.parameters values) function.body := by
      refine eval_congr function.body fun callee member => ?_
      obtain ⟨earlier, below, resolvesEarlier⟩ := backwards place callee member
      exact ih earlier below resolvesEarlier (by omega) (by omega)
    simp only [body]

/-! ## Runs -/

/-- Runs a program with at most `depth` calls nested in each other. -/
def runWithin (program : Program) (depth : Nat) (input : List String) : Outcome :=
  match (setFields program depth {} program.fields >>= fun fields =>
    performAll program depth fields program.main) ⟨input, ""⟩ with
  | .ok _ console => ⟨console.output, none⟩
  | .error fault console => ⟨console.output, some fault⟩

private theorem runWithin_callDepth (program : Program) (input : List String) :
    runWithin program program.callDepth input = program.run input :=
  rfl

/-- Everything that a program calls is there, and its functions call backwards. -/
structure Resolved (program : Program) : Prop where
  backwards : CallsBackwards program
  main : ∀ {label value}, .value label value ∈ program.main →
    ∀ name ∈ callees value, ∃ index, Resolves program name index
  fields : ∀ field ∈ program.fields, ∃ index, Resolves program field.init index

private theorem resolves_lt (resolves : Resolves program name index) : index < program.functions.length :=
  (List.findIdx?_eq_some_iff_getElem.mp resolves).1

private theorem setFields_congr (backwards : CallsBackwards program)
    (deep : program.functions.length ≤ depth) (deep' : program.functions.length ≤ depth')
    {fields : List Field} (inits : ∀ field ∈ fields, ∃ index, Resolves program field.init index)
    (known : Bindings Value) :
    setFields program depth known fields = setFields program depth' known fields := by
  induction fields generalizing known with
  | nil => rfl
  | cons field rest ih =>
    obtain ⟨⟨index, resolves⟩, others⟩ := List.forall_mem_cons.mp inits
    have inside := resolves_lt resolves
    have called : callAt program known depth field.init = callAt program known depth' field.init :=
      call_congr backwards known resolves (by omega) (by omega)
    rw [setFields, setFields, called]
    simp only [ih others]

private theorem performAll_congr (backwards : CallsBackwards program)
    (deep : program.functions.length ≤ depth) (deep' : program.functions.length ≤ depth')
    {actions : List Action} (calls : ∀ {label value}, .value label value ∈ actions →
      ∀ name ∈ callees value, ∃ index, Resolves program name index) (known : Bindings Value) :
    performAll program depth known actions = performAll program depth' known actions := by
  induction actions with
  | nil => rfl
  | cons action rest ih =>
    have performed : perform program depth known action = perform program depth' known action := by
      cases action with
      | line text => rfl
      | value label value =>
        have called : ∀ name ∈ callees value,
            callAt program known depth name = callAt program known depth' name := by
          intro name member
          obtain ⟨index, resolves⟩ := calls List.mem_cons_self name member
          have inside := resolves_lt resolves
          exact call_congr backwards known resolves (by omega) (by omega)
        rw [perform, perform, eval_congr value called]
    rw [performAll, performAll, performed, ih fun member => calls (List.mem_cons_of_mem _ member)]

/-- A program that calls backwards runs alike under all limits from the number of its functions on. -/
theorem run_congr (resolved : Resolved program) (deep : program.functions.length ≤ depth)
    (deep' : program.functions.length ≤ depth') (input : List String) :
    runWithin program depth input = runWithin program depth' input := by
  unfold runWithin
  rw [setFields_congr resolved.backwards deep deep' resolved.fields]
  simp only [performAll_congr resolved.backwards deep deep' resolved.main]

/-! ## Lowered programs -/

private theorem backwards_of_layered (layered : Layered wanted fields functions)
    (included : functions <+: program.functions) {index : Nat} {function : Function}
    (place : functions[index]? = some function) (member : name ∈ callees function.body) :
    ∃ earlier < index, Resolves program name earlier := by
  induction layered generalizing index with
  | nil => simp at place
  | field below field ih => exact ih included place
  | @function fields functions last below closed ih =>
    have includedBelow : functions <+: program.functions := (List.prefix_append _ _).trans included
    rcases Nat.lt_trichotomy index functions.length with inside | rfl | outside
    · rw [List.getElem?_append_left inside] at place
      exact ih includedBelow place
    · rw [List.getElem?_concat_length, Option.some.injEq] at place
      subst place
      obtain ⟨target, inside, named⟩ := callee_of_closed closed member
      exact resolves_below includedBelow inside named
    · rw [List.getElem?_eq_none (by simp; omega)] at place
      cases place

/-- Each field has its function. -/
theorem steps_inits (steps : Steps naming before statements exprs after)
    (inits : ∀ field ∈ before.program.fields,
      ∃ function ∈ before.program.functions, function.name = field.init) :
    ∀ field ∈ after.program.fields,
      ∃ function ∈ after.program.functions, function.name = field.init := by
  induction steps with
  | nil => exact inits
  | cons step rest ih =>
    refine ih fun field member => ?_
    cases step with
    | assignment shape lowered =>
      rcases List.mem_append.mp member with old | new
      · obtain ⟨function, inside, named⟩ := inits field old
        exact ⟨function, List.mem_append_left _ inside, named⟩
      · obtain rfl := List.mem_singleton.mp new
        exact ⟨_, List.mem_append_right _ List.mem_cons_self, rfl⟩
    | definition shape lowered =>
      obtain ⟨function, inside, named⟩ := inits field (by simpa [Appended] using member)
      exact ⟨function, List.mem_append_left _ inside, named⟩
    | expression lowered =>
      simpa [Appended] using inits field (by simpa [Appended] using member)

private theorem resolved_of_steps
    (steps : Steps naming (start namespaceName className) statements exprs final) :
    Resolved final.program := by
  have ready : Ready (fun _ => True) final :=
    steps_ready steps (ready_start namespaceName className) fun _ _ _ _ => trivial
  constructor
  · intro index function place name member
    exact backwards_of_layered ready.layered (List.prefix_refl _) place member
  · intro label value inMain name member
    obtain ⟨function, inside, named⟩ := callee_of_closed (ready.main inMain) member
    exact resolves_of_mem inside named
  · intro field member
    obtain ⟨function, inside, named⟩ := steps_inits steps (by simp [start]) field member
    exact resolves_of_mem inside named

/-- A run of a lowered program is never stopped for the depth of its calls. -/
theorem run_not_stopped
    (steps : Steps naming (start namespaceName className) statements exprs final)
    (input : List String) : (final.program.run input).fault ≠ some .callDepth := by
  have ended : Ensures (Expected final.program fun _ => True) (fun _ => True) final.program.execute :=
    ensures_execute steps fun _ _ _ _ => trivial
  intro stopped
  exact fault_of_ensures ended stopped

/-- A field whose function calls itself. -/
def circular : Program where
  fields := [⟨"v", .double, "Init"⟩]
  functions := [⟨"Init", [], .double, .call (.user "Init") []⟩]

private theorem circular_call (known : Bindings Value) (depth : Nat) :
    callAt circular known depth "Init" [] = throw .callDepth := by
  induction depth with
  | zero => rfl
  | succ depth ih =>
    change (evalWith (callAt circular known depth) known {} (.call (.user "Init") []) >>= _) = _
    rw [eval_call _ (by simp), evalAllWith]
    change (callAt circular known depth "Init" [] >>= _) = _
    rw [ih]
    rfl

private theorem circular_setFields (depth : Nat) :
    setFields circular depth {} circular.fields = throw .callDepth := by
  change (callAt circular {} depth "Init" [] >>= _) = _
  rw [circular_call]
  rfl

/-- **Lowered programs end.** Whatever the stems of names, and with statements that have a fault passed
over, every function calls only functions in front of it, and every call in the main routine and every
field finds its function. So no run nests more calls than there are functions: it is the same under every
limit from their number on, and never stopped by one. The program of a circular call is stopped by every
limit. -/
theorem lowered_program_terminates (naming : Naming) (namespaceName className : String)
    (statements : List Statement) :
    let program := (lowerEach naming (start namespaceName className) statements).program
    Resolved program ∧
      (∀ input depth, program.functions.length ≤ depth →
        runWithin program depth input = program.run input) ∧
      (∀ input, (program.run input).fault ≠ some .callDepth) ∧
      ∀ input depth, (runWithin circular depth input).fault = some .callDepth := by
  intro program
  obtain ⟨accepted, exprs, -, steps⟩ :=
    steps_of_each naming (start namespaceName className) statements
  have resolved : Resolved program := resolved_of_steps steps
  refine ⟨resolved, ?_, run_not_stopped steps, ?_⟩
  · intro input depth deep
    rw [← runWithin_callDepth]
    exact run_congr resolved deep (Nat.le_add_right _ _) input
  · intro input depth
    rw [runWithin, circular_setFields]
    rfl

end FormulaSheet.CallOrder
