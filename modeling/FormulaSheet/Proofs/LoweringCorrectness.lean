import FormulaSheet.Proofs.FormulaSimulation
import FormulaSheet.Proofs.GeneratedNames

/-! A lowered sheet runs as the sheet means. A sheet keeps environments in which functions are closures;
its program keeps one flat set of fields and functions and finds them by name. The two are related by
`Simulates`, which looks ahead: a name bound at some point stands for the same however many fields are
set behind it and however deep the calls may nest. -/
namespace FormulaSheet.LoweringCorrectness
open Target LoweringSteps RunOutcomes SheetSemantics FormulaSimulation GeneratedNames

/-! ## Stems that keep names apart -/

/-- The names that statements bind: assigned names, functions and their parameters. -/
def boundNames (statements : List Statement) : List String :=
  statements.flatMap fun statement =>
    match statement.body with
    | .assignment name _ => [name]
    | .definition name parameters _ => name :: parameters
    | _ => []

/-- Stems under which all bindings of some names get names of their own. A parameter is named like the
first binding of a variable, so parameters are kept apart by the fields. -/
structure Distinguishes (naming : Naming) (names : List String) : Prop where
  field : ∀ a ∈ names, ∀ b ∈ names, ∀ g h, 1 ≤ g → 1 ≤ h →
    naming.field a g = naming.field b h → a = b ∧ g = h
  function : ∀ a ∈ names, ∀ b ∈ names, ∀ g h, 1 ≤ g → 1 ≤ h →
    naming.function a g = naming.function b h → a = b ∧ g = h
  init : ∀ a ∈ names, ∀ b ∈ names, ∀ g h, 1 ≤ g → 1 ≤ h →
    naming.init (naming.field a g) ≠ naming.function b h

/-- The default stems keep names of letters and digits apart. -/
theorem distinguishes_of_alphanumeric
    (plain : ∀ name ∈ names, name.toList.all Char.isAlphanum) : Distinguishes {} names := by
  have unchanged : ∀ name ∈ names, sanitized name = name := by
    intro name member
    have kept : name.toList.flatMap sanitizedChar = name.toList.flatMap ([·]) := by
      refine List.flatMap_congr fun c inName => ?_
      simp [sanitizedChar, List.all_eq_true.mp (plain name member) c inName]
    rw [sanitized, kept, List.flatMap_singleton', String.ofList_toList]
  have unnumbered : ∀ name ∈ names, ∀ other g, 2 ≤ g → name ≠ Naming.numbered other g := by
    intro name member other g counted same
    have alphanumeric := List.all_eq_true.mp (plain name member) '_' (by
      rw [same, numbered_toList, suffix, if_neg (by omega)]
      simp)
    simp at alphanumeric
  have numbers : ∀ stem, ∀ a ∈ names, ∀ b ∈ names, ∀ g h, 1 ≤ g → 1 ≤ h →
      Naming.numbered (stem ++ sanitized a) g = Naming.numbered (stem ++ sanitized b) h →
      a = b ∧ g = h := by
    intro stem a memberA b memberB g h countedA countedB same
    rw [numbered_behind, unchanged a memberA, unchanged b memberB,
      numbered_eq_iff countedA countedB] at same
    rcases same with same | ⟨-, more, same⟩ | ⟨-, more, same⟩
    · exact same
    · exact absurd same (unnumbered a memberA b h more)
    · exact absurd same (unnumbered b memberB a g more)
  exact ⟨numbers _, numbers _, fun a _ b _ g h _ _ => init_ne_function _ b h⟩

private theorem parameter_of_field (apart : Distinguishes naming names) (member : a ∈ names)
    (member' : b ∈ names) (counted : 1 ≤ h) (same : naming.parameter a = naming.field b h) :
    a = b :=
  (apart.field a member b member' 1 h (Nat.le_refl 1) counted same).1

private theorem assigned_bound : assigned statements ⊆ boundNames statements := by
  intro name member
  obtain ⟨statement, inSheet, names⟩ := List.mem_filterMap.mp member
  refine List.mem_flatMap.mpr ⟨statement, inSheet, ?_⟩
  unfold assignedName? at names
  split at names <;> simp_all

private theorem defined_bound : defined statements ⊆ boundNames statements := by
  intro name member
  obtain ⟨statement, inSheet, names⟩ := List.mem_filterMap.mp member
  refine List.mem_flatMap.mpr ⟨statement, inSheet, ?_⟩
  unfold definedName? at names
  split at names <;> simp_all

private theorem occurrence_of_name {names : List String}
    (member : (name, generation) ∈ occurrencesFrom [] names) : name ∈ names ∧ 1 ≤ generation := by
  rw [mem_occurrencesFrom] at member
  simp only [List.count_nil, Nat.zero_add] at member
  exact ⟨List.count_pos_iff.mp (by omega), by omega⟩

/-- No two fields of a lowered sheet share a name. -/
theorem fields_nodup (steps : Steps naming (start namespaceName className) statements exprs final)
    (apart : Distinguishes naming (boundNames statements)) :
    (final.program.fields.map (·.name)).Nodup := by
  rw [(steps_names steps recorded_nothing).2.1]
  refine List.Nodup.map_on ?_ (occurrencesFrom_nodup [] (assigned statements))
  rintro ⟨a, g⟩ member ⟨b, h⟩ member' same
  obtain ⟨inSheet, counted⟩ := occurrence_of_name member
  obtain ⟨inSheet', counted'⟩ := occurrence_of_name member'
  obtain ⟨rfl, rfl⟩ :=
    apart.field a (assigned_bound inSheet) b (assigned_bound inSheet') g h counted counted' same
  rfl

/-- No two functions of a lowered sheet share a name. -/
theorem functions_nodup (steps : Steps naming (start namespaceName className) statements exprs final)
    (apart : Distinguishes naming (boundNames statements)) :
    (final.program.functions.map (·.name)).Nodup := by
  obtain ⟨-, fieldNamesAre, functionNamesAre⟩ := steps_names steps recorded_nothing
  have injective : Function.Injective naming.init := by
    intro first second same
    simpa [Naming.init] using same
  have fields : (fieldNames naming (occurrencesFrom [] (assigned statements))).Nodup := by
    have nodup := fields_nodup steps apart
    rwa [fieldNamesAre] at nodup
  rw [functionNamesAre.nodup_iff]
  simp only [start, List.map_nil, List.nil_append]
  refine List.nodup_append'.mpr ⟨fields.map injective, ?_, ?_⟩
  · refine List.Nodup.map_on ?_ (occurrencesFrom_nodup [] (defined statements))
    rintro ⟨a, g⟩ member ⟨b, h⟩ member' same
    obtain ⟨inSheet, counted⟩ := occurrence_of_name member
    obtain ⟨inSheet', counted'⟩ := occurrence_of_name member'
    obtain ⟨rfl, rfl⟩ :=
      apart.function a (defined_bound inSheet) b (defined_bound inSheet') g h counted counted' same
    rfl
  · intro name inInits inFunctions
    obtain ⟨field, inFields, rfl⟩ := List.mem_map.mp inInits
    obtain ⟨⟨a, g⟩, member, rfl⟩ := List.mem_map.mp inFields
    obtain ⟨⟨b, h⟩, member', same⟩ := List.mem_map.mp inFunctions
    obtain ⟨inSheet, counted⟩ := occurrence_of_name member
    obtain ⟨inSheet', counted'⟩ := occurrence_of_name member'
    exact apart.init a (assigned_bound inSheet) b (defined_bound inSheet') g h counted counted'
      same.symm

/-! ## Parameters -/

section Parameters

variable {naming : Naming} {parameters : List String} {values : List Value}

/-- Names that are no parameters keep their meaning. -/
private theorem bindAll_of_not_mem (complete : parameters.length = values.length)
    (outer : name ∉ parameters) (env : Env) : env.bindAll parameters values name = env name := by
  rw [← List.map_fst_zip (Nat.le_of_eq complete)] at outer
  unfold Env.bindAll
  generalize parameters.zip values = pairs at outer
  induction pairs generalizing env with
  | nil => rfl
  | cons pair rest ih =>
    simp only [List.map_cons, List.mem_cons, not_or] at outer
    rw [List.foldl_cons, ih _ outer.2]
    simp [Env.bind, Ne.symm outer.1]

/-- Names that are no parameters have no value among those of the parameters. -/
private theorem get?_bindParameters_of_not_mem (complete : parameters.length = values.length)
    (outer : generated ∉ parameters) : (bindParameters parameters values).get? generated = none := by
  have keeps (pairs : List (String × Value)) (bound : Bindings Value)
      (outer : generated ∉ pairs.map Prod.fst) :
      (pairs.foldl (fun bound pair => bound.insert pair.1 (pair.2.cast .double)) bound).get? generated =
        bound.get? generated := by
    induction pairs generalizing bound with
    | nil => rfl
    | cons pair rest ih =>
      simp only [List.map_cons, List.mem_cons, not_or] at outer
      rw [List.foldl_cons, ih _ outer.2, Bindings.get?_insert_of_ne _ _ (Ne.symm outer.1)]
  rw [← List.map_fst_zip (Nat.le_of_eq complete)] at outer
  exact keeps _ {} outer

/-- A parameter gets the same double on both sides, the last one if it stands there more than once. -/
private theorem parameter_bound (complete : parameters.length = values.length) (env : Env)
    (injective : ∀ other ∈ parameters, naming.parameter other = naming.parameter name → other = name)
    (member : name ∈ parameters) :
    ∃ number, env.bindAll parameters values name = some (.number (.double number)) ∧
      (bindParameters (parameters.map naming.parameter) values).get? (naming.parameter name) =
        some (.double number) := by
  have keeps (pairs : List (String × Value)) (inner : Env) (bound : Bindings Value)
      (injective : ∀ pair ∈ pairs, naming.parameter pair.1 = naming.parameter name → pair.1 = name)
      (known : name ∈ pairs.map Prod.fst ∨ ∃ number, inner name = some (.number (.double number)) ∧
        bound.get? (naming.parameter name) = some (.double number)) :
      ∃ number, pairs.foldl
          (fun inner pair => inner.bind pair.1 (.number (.double (double pair.2)))) inner name =
          some (.number (.double number)) ∧
        ((pairs.map (Prod.map naming.parameter id)).foldl
          (fun bound pair => bound.insert pair.1 (pair.2.cast .double)) bound).get?
          (naming.parameter name) = some (.double number) := by
    induction pairs generalizing inner bound with
    | nil => exact known.resolve_left (by simp)
    | cons pair rest ih =>
      obtain ⟨first, later⟩ := List.forall_mem_cons.mp injective
      refine ih _ _ later ?_
      by_cases same : pair.1 = name
      · right
        exact ⟨double pair.2, by simp [Env.bind, same], by simp [same, cast_double]⟩
      · have apart : naming.parameter pair.1 ≠ naming.parameter name := fun eq => same (first eq)
        have different : name ≠ pair.1 := Ne.symm same
        simpa [Env.bind, same, different, Bindings.get?_insert_of_ne _ _ apart] using known
  rw [bindParameters, List.zip_map_left]
  refine keeps _ env {} (fun pair inPairs => injective _ (List.of_mem_zip inPairs).1) (.inl ?_)
  rwa [List.map_fst_zip (Nat.le_of_eq complete)]

/-- Names that match outside a function match inside it, where the parameters hide other names in the
sheet and no field in the program. -/
theorem matches_inside (outside : Matches call fields {} table env)
    (recorded : Recorded naming assignments definitions table) (apart : Distinguishes naming names)
    (assignmentsIn : assignments ⊆ names) (parametersIn : parameters ⊆ names)
    (complete : parameters.length = values.length) :
    Matches call fields (bindParameters (parameters.map naming.parameter) values)
      (table.enterFunction naming parameters) (env.bindAll parameters values) := by
  intro name
  rw [SymbolTable.get?_enterFunction]
  by_cases inner : name ∈ parameters
  · obtain ⟨number, inSheet, held⟩ := parameter_bound complete env
      (fun other member same => parameter_of_field apart (parametersIn member)
        (parametersIn inner) (Nat.le_refl 1) same) inner
    rw [if_pos inner, inSheet]
    exact .some (.parameter (by rw [held]; rfl) rfl)
  · rw [if_neg inner, bindAll_of_not_mem complete inner]
    cases known : table.get? name with
    | none =>
      rw [matches_none outside known]
      exact .none
    | some symbol =>
      obtain ⟨meaning, inSheet, stands⟩ := matches_some outside known
      rw [inSheet]
      refine .some ?_
      cases stands with
      | number held kindIs =>
        -- Parameters come before fields, so none may have the name of a field that is used.
        obtain ⟨wasAssigned, rfl⟩ := recorded.newestVariable known
        have visible : naming.field name (assignments.count name) ∉
            parameters.map naming.parameter := by
          intro hidden
          obtain ⟨parameter, member, same⟩ := List.mem_map.mp hidden
          have equal := parameter_of_field apart (parametersIn member) (assignmentsIn wasAssigned)
            (List.count_pos_iff.mpr wasAssigned) same
          exact inner (equal ▸ member)
        refine .number ?_ kindIs
        rw [get?_bindParameters_of_not_mem (by simpa using complete) visible]
        exact held
      | parameter held kindIs => exact absurd known recorded.noParameter
      | function applies doubles => exact .function applies doubles

end Parameters

/-! ## Simulation -/

/-- Fields that are known keep their values. -/
def Extends (known later : Bindings Value) : Prop :=
  ∀ name value, known.get? name = some value → later.get? name = some value

private theorem extends_insert (extended : Extends (known.insert name value) later)
    (fresh : known.get? name = none) : Extends known later := by
  intro other old found
  have different : name ≠ other := by
    rintro rfl
    rw [fresh] at found
    cases found
  exact extended other old (by rwa [Bindings.get?_insert_of_ne _ _ different])

/-- The names of a table stand for the same in the sheet and in the program, whatever fields are set
later, as soon as calls may nest as deep as there are functions so far. -/
def Simulates (program : Program) (known : Bindings Value) (count : Nat) (table : SymbolTable)
    (env : Env) : Prop :=
  ∀ later depth, Extends known later → count ≤ depth →
    Matches (callAt program later depth) later {} table env

/-- The function for the first value of a field computes what is assigned. -/
theorem call_init (simulates : Simulates program known count table env)
    (lowered : Lowers table line value body)
    (found : program.function? (InitOf naming table name value body).name =
      some (InitOf naming table name value body)) (deep : count < depth) :
    callAt program known depth (InitOf naming table name value body).name [] = eval env value := by
  obtain ⟨depth, rfl⟩ := Nat.exists_eq_add_one_of_ne_zero (Nat.ne_zero_of_lt deep)
  have same := simulates known depth (fun _ _ found => found) (Nat.le_of_lt_succ deep)
  rw [call_found found rfl]
  calc _ = eval env value >>= fun result => pure (result.cast (Ty.ofKind (table.kindOf value))) := by
        rw [← eval_lowered lowered same]
        rfl
    _ = eval env value >>= pure :=
        bind_congr_of_ensures (ensures_kind lowered same) fun result kindIs => by
          rw [cast_of_kind kindIs]
    _ = eval env value := bind_pure _

/-- The function of a definition does what the closure does. -/
theorem call_definition (simulates : Simulates program known count table env)
    (recorded : Recorded naming assignments definitions table) (apart : Distinguishes naming names)
    (assignmentsIn : assignments ⊆ names) (parametersIn : parameters ⊆ names)
    (lowered : Lowers (table.enterFunction naming parameters) line formula body)
    (found : program.function? (FunctionOf naming table name parameters body).name =
      some (FunctionOf naming table name parameters body))
    (extended : Extends known later) (deep : count < depth)
    (complete : parameters.length = values.length) :
    callAt program later depth (FunctionOf naming table name parameters body).name values =
      env.closure parameters formula values := by
  obtain ⟨depth, rfl⟩ := Nat.exists_eq_add_one_of_ne_zero (Nat.ne_zero_of_lt deep)
  have outside := simulates later depth extended (Nat.le_of_lt_succ deep)
  have inside := matches_inside outside recorded apart assignmentsIn parametersIn complete
  rw [call_found found (by simpa [FunctionOf] using complete), Env.closure, if_pos complete,
    ← eval_lowered lowered inside]
  simp only [FunctionOf, cast_double]

private theorem ensures_closure_kind (env : Env) (parameters : List String) (body : Formula)
    (values : List Value) :
    Ensures (fun _ => True) (kind · = .float) (env.closure parameters body values) := by
  unfold Env.closure
  split
  · exact ensures_bind (ensures_any _) fun value _ => ensures_pure rfl
  · exact ensures_throw trivial

/-- One more name is bound alike if it stands for the same on both sides. -/
private theorem matches_bind (outside : Matches call fields parameters table env)
    (bound : ∀ other, table'.get? other = if name = other then some symbol else table.get? other)
    (stands : Stands call fields parameters symbol meaning) :
    Matches call fields parameters table' (env.bind name meaning) := by
  intro other
  rw [bound, Env.bind]
  split
  · exact .some stands
  · exact outside other

/-- A run has reached a point of the sheet: the fields so far are set, and no others, and the names so
far stand for the same. -/
structure Reached (program : Program) (state : Lowering) (known : Bindings Value) (env : Env) :
    Prop where
  fields : ∀ name, (known.get? name).isSome → name ∈ state.program.fields.map (·.name)
  simulates : Simulates program known state.program.functions.length state.globals env

private theorem reached_start (program : Program) (namespaceName className : String) :
    Reached program (start namespaceName className) {} Env.empty where
  fields name held := by cases held
  simulates _ _ _ _ _ := .none

section Steps

variable {before : Lowering}

private theorem fresh_of_reached (reached : Reached program before known env)
    (new : name ∉ before.program.fields.map (·.name)) : known.get? name = none := by
  rw [← Option.not_isSome_iff_eq_none]
  exact fun held => new (reached.fields name held)

/-- With its field set, the assigned name stands for its value. -/
theorem reached_assignment (reached : Reached program before known env)
    (new : (FieldOf naming before.globals name formula).name ∉
      before.program.fields.map (·.name))
    (kindIs : kind value = before.globals.kindOf formula) :
    Reached program
      ⟨Appended before.program [FieldOf naming before.globals name formula]
        [InitOf naming before.globals name formula body] actions,
        (before.globals.declareVariable naming name (before.globals.kindOf formula)).1⟩
      (known.insert (FieldOf naming before.globals name formula).name value)
      (env.bind name (.number value)) := by
  constructor
  · intro other held
    rw [Bindings.get?_insert] at held
    simp only [Appended, List.map_append, List.mem_append]
    split at held
    · rename_i same
      exact .inr (by simp [same])
    · exact .inl (reached.fields other held)
  · intro later depth extended deep
    simp only [Appended, List.length_append] at deep
    have outside := reached.simulates later depth
      (extends_insert extended (fresh_of_reached reached new)) (by omega)
    refine matches_bind outside (SymbolTable.get?_declareVariable _ _ _ · _) (.number ?_ kindIs)
    have held := extended _ value (Bindings.get?_insert_self ..)
    exact held

/-- With its function added, the defined name stands for the closure. -/
theorem reached_definition (reached : Reached program before known env)
    (applies : ∀ {later depth values}, Extends known later →
      before.program.functions.length < depth → parameters.length = values.length →
      callAt program later depth (FunctionOf naming before.globals name parameters body).name values =
        env.closure parameters formula values) :
    Reached program
      ⟨Appended before.program [] [FunctionOf naming before.globals name parameters body] actions,
        (before.globals.declareFunction naming name parameters.length).1⟩ known
      (env.bind name (.function (env.closure parameters formula))) := by
  constructor
  · simpa [Appended] using reached.fields
  · intro later depth extended deep
    simp only [Appended, List.length_append, List.length_singleton] at deep
    have outside := reached.simulates later depth extended (by omega)
    refine matches_bind outside (SymbolTable.get?_declareFunction _ _ _ · _) ?_
    exact .function (fun values complete => applies extended (by omega) complete.symm)
      (ensures_closure_kind env parameters formula)

/-! ## Both phases -/

/-- Behind a point that is reached, setting fields is settling statements; and with those fields set,
a part of the main routine prints what the sheet reports for the statements. -/
def RunAlike (program : Program) (depth : Nat) (before : Lowering) (statements : List Statement)
    (fields : List Field) (actions : List Action) : Prop :=
  ∀ known env, Reached program before known env →
    Agree (fun settled entries => Extends known settled ∧
        performAll program depth settled actions = reportAll entries)
      (setFields program depth known fields) (settle env statements)

/-- The two lines that a statement adds to the main routine print its text and report its result. -/
private theorem reported_alike (performed : perform program depth settled action = report entry)
    (rest : performAll program depth settled actions = reportAll entries) :
    performAll program depth settled (.line text :: action :: actions) =
      reportAll ((text, entry) :: entries) := by
  rw [performAll, performAll, performed, rest]
  rfl

private theorem alike_assignment {statement : Statement}
    (shape : statement.body = .assignment name formula)
    (lowered : Lowers before.globals statement.line formula body)
    (found : program.function? (InitOf naming before.globals name formula body).name =
      some (InitOf naming before.globals name formula body))
    (new : (FieldOf naming before.globals name formula).name ∉ before.program.fields.map (·.name))
    (deep : before.program.functions.length < depth)
    (later : RunAlike program depth
      ⟨Appended before.program [FieldOf naming before.globals name formula]
        [InitOf naming before.globals name formula body]
        [.line statement.body.text,
          .value (some name) (.variable (FieldOf naming before.globals name formula).name)],
        (before.globals.declareVariable naming name (before.globals.kindOf formula)).1⟩ rest
      fields actions) :
    RunAlike program depth before (statement :: rest)
      (FieldOf naming before.globals name formula :: fields)
      (.line statement.body.text ::
        .value (some name) (.variable (FieldOf naming before.globals name formula).name) :: actions) := by
  intro known env reached
  have same := reached.simulates known depth (fun _ _ held => held) (Nat.le_of_lt deep)
  have called : callAt program known depth (FieldOf naming before.globals name formula).init [] =
      eval env formula := call_init reached.simulates lowered found deep
  rw [setFields, called, settle_assignment shape]
  refine agree_bind (agree_self (ensures_kind lowered same)) ?_
  rintro value _ ⟨rfl, kindIs⟩
  -- The field has the type foreseen for the formula, so nothing is lost when it is set.
  have kept : value.cast (FieldOf naming before.globals name formula).ty = value :=
    cast_of_kind kindIs
  rw [kept]
  refine agree_map_right (later _ _ (reached_assignment reached new kindIs)) ?_
  rintro settled entries ⟨extended, performed⟩
  refine ⟨extends_insert extended (fresh_of_reached reached new), reported_alike ?_ performed⟩
  rw [perform, evalWith, extended _ value (Bindings.get?_insert_self ..), report, ← text_eq]
  rfl

private theorem alike_definition {statement : Statement}
    (shape : statement.body = .definition name parameters formula)
    (applies : ∀ {known env later depth values}, Reached program before known env →
      Extends known later → before.program.functions.length < depth →
      parameters.length = values.length →
      callAt program later depth (FunctionOf naming before.globals name parameters body).name values =
        env.closure parameters formula values)
    (later : RunAlike program depth
      ⟨Appended before.program [] [FunctionOf naming before.globals name parameters body]
        [.line statement.body.text, .line (DeclaredLine name parameters)],
        (before.globals.declareFunction naming name parameters.length).1⟩ rest
      fields actions) :
    RunAlike program depth before (statement :: rest) fields
      (.line statement.body.text :: .line (DeclaredLine name parameters) :: actions) := by
  intro known env reached
  rw [settle_definition shape]
  refine agree_map_right (later known _ (reached_definition reached (applies reached))) ?_
  rintro settled entries ⟨extended, performed⟩
  exact ⟨extended, reported_alike rfl performed⟩

private theorem alike_expression {statement : Statement}
    (lowered : Lowers before.globals statement.line statement.body value)
    (deep : before.program.functions.length ≤ depth)
    (later : RunAlike program depth
      ⟨Appended before.program [] [] [.line statement.body.text, .value none value], before.globals⟩
      rest fields actions) :
    RunAlike program depth before (statement :: rest) fields
      (.line statement.body.text :: .value none value :: actions) := by
  intro known env reached
  obtain ⟨noAssignment, noDefinition⟩ := lowered_not_declaration lowered
  rw [settle_expression noAssignment noDefinition]
  refine agree_map_right (later known env ⟨?_, ?_⟩) ?_
  · simpa [Appended] using reached.fields
  · simpa [Appended] using reached.simulates
  rintro settled entries ⟨extended, performed⟩
  refine ⟨extended, reported_alike ?_ performed⟩
  -- Printed behind all fields, the formula still sees the names as they were at its statement.
  rw [perform, eval_lowered lowered (reached.simulates settled depth extended deep), report]
  simp only [print_eq, text_eq]

end Steps

/-- **Sheets.** The fields and lines that statements add to a program run as the statements do. -/
theorem steps_run_alike (steps : Steps naming before statements exprs after)
    (recorded : Recorded naming assignments definitions before.globals)
    (apart : Distinguishes naming names) (assignmentsIn : assignments ⊆ names)
    (boundIn : boundNames statements ⊆ names)
    (finds : ∀ function ∈ after.program.functions, program.function? function.name = some function)
    (fieldsApart : (after.program.fields.map (·.name)).Nodup)
    (deep : after.program.functions.length ≤ depth) :
    ∃ fields functions actions, after.program = Appended before.program fields functions actions ∧
      RunAlike program depth before statements fields actions := by
  induction steps generalizing assignments definitions with
  | nil =>
    refine ⟨[], [], [], appended_nothing.symm, fun known env _ => ?_⟩
    exact agree_pure ⟨fun _ _ held => held, rfl⟩
  | @cons before first expr middle later exprs after step rest ih =>
    have boundHere : boundNames [first] ++ boundNames later ⊆ names := by
      simpa [boundNames] using boundIn
    obtain ⟨boundFirst, boundLater⟩ := List.append_subset.mp boundHere
    have assignmentsMiddle : assignments ++ assigned [first] ⊆ names :=
      List.append_subset.mpr ⟨assignmentsIn, fun _ member => boundFirst (assigned_bound member)⟩
    obtain ⟨fields, functions, actions, afterIs, alike⟩ :=
      ih (step_names step recorded).1 assignmentsMiddle boundLater finds fieldsApart deep
    cases step with
    | assignment shape lowered =>
      simp only [appended_twice] at afterIs
      rw [afterIs] at finds fieldsApart deep
      refine ⟨_, _, _, afterIs, alike_assignment shape lowered (finds _ ?_) ?_ ?_ alike⟩
      · simp [Appended]
      · simp only [Appended, List.map_append, List.nodup_append'] at fieldsApart
        intro old
        exact fieldsApart.2.2 old (by simp)
      · simp only [Appended, List.length_append, List.length_singleton] at deep
        omega
    | definition shape lowered =>
      rename_i name parameters formula
      simp only [appended_twice] at afterIs
      rw [afterIs] at finds
      have found := finds (FunctionOf naming before.globals name parameters expr) (by simp [Appended])
      have parametersIn : parameters ⊆ names := by
        intro parameter member
        exact boundFirst (by simp [boundNames, shape, member])
      refine ⟨_, _, _, afterIs, alike_definition shape ?_ alike⟩
      intro known env later depth values reached extended deeper complete
      exact call_definition reached.simulates recorded apart assignmentsIn parametersIn lowered found
        extended deeper complete
    | expression lowered =>
      simp only [appended_twice] at afterIs
      rw [afterIs] at deep
      refine ⟨_, _, _, afterIs, alike_expression lowered ?_ alike⟩
      simp only [Appended, List.length_append] at deep
      omega

/-- A lowered sheet does what the sheet means. -/
theorem execute_lowered (lowered : Lowering.statements naming (start namespaceName className) statements = .ok final)
    (apart : Distinguishes naming (boundNames statements)) :
    final.program.execute = SheetSemantics.execute statements := by
  obtain ⟨exprs, steps⟩ := steps_of_ok lowered
  have deep : final.program.functions.length ≤ final.program.callDepth := Nat.le_add_right _ _
  obtain ⟨fields, functions, actions, finalIs, alike⟩ :=
    steps_run_alike steps recorded_nothing apart (List.nil_subset _) (List.Subset.refl _)
      (fun function member => find?_of_nodup (functions_nodup steps apart) member)
      (fields_nodup steps apart) deep
  have fieldsAre : final.program.fields = fields := by simp [finalIs, Appended, start]
  have mainIs : final.program.main = actions := by simp [finalIs, Appended, start]
  rw [Program.execute, SheetSemantics.execute, fieldsAre, mainIs]
  exact bind_eq_of_agree (alike {} Env.empty (reached_start ..)) fun _ _ related => related.2

/-- **Lowering keeps the meaning of a sheet.** Under stems that keep the bound names apart, a lowered
sheet prints on every input what the sheet means, and ends with the same fault, if any. -/
theorem lowered_program_runs_as_sheet (naming : Naming) (namespaceName className : String)
    (statements : List Statement) (final : Lowering)
    (lowered : Lowering.statements naming (start namespaceName className) statements = .ok final)
    (apart : Distinguishes naming (boundNames statements)) (input : List String) :
    final.program.run input = SheetSemantics.outcome statements input := by
  have same := execute_lowered lowered apart
  cases ran : SheetSemantics.execute statements ⟨input, ""⟩ with
  | ok value console => simp only [Program.run, SheetSemantics.outcome, same, ran]
  | error fault console => simp only [Program.run, SheetSemantics.outcome, same, ran]

/-- `x = 0.5`, `f(t) = t + x`, `x = x + 0.25`, `x` and `f(y)`. -/
def reboundSheet : List Statement :=
  [⟨.assignment "x" (.number (.float 0.5)), some 1⟩,
    ⟨.definition "f" ["t"] (.binary .add (.identifier "t") (.identifier "x")), some 2⟩,
    ⟨.assignment "x" (.binary .add (.identifier "x") (.number (.float 0.25))), some 3⟩,
    ⟨.identifier "x", some 4⟩, ⟨.call "f" [.identifier "y"], some 5⟩]

/-- A name that is bound twice, a function between its bindings, and a name that is asked for until a
line holds a number. -/
theorem rebound_sheet_runs_as_it_means :
    Distinguishes {} (boundNames reboundSheet) ∧
    ∃ final, Lowering.statements {} (start "Sheet" "Program") reboundSheet = .ok final ∧
      final.program.run ["x", " 2,5"] =
        ⟨"x = 0.5\nx = 0.5\nf(t) = t + x\nf(t) declared\nx = x + 0.25\nx = 0.75\nx\n0.75\n" ++
          "f(y)\ny = Invalid number, try again.\ny = 3\n", none⟩ ∧
      final.program.run ["x"] =
        ⟨"x = 0.5\nx = 0.5\nf(t) = t + x\nf(t) declared\nx = x + 0.25\nx = 0.75\nx\n0.75\n" ++
          "f(y)\ny = Invalid number, try again.\ny = ", some (.noInput "y")⟩ := by
  have apart : Distinguishes {} (boundNames reboundSheet) :=
    distinguishes_of_alphanumeric (by decide)
  refine ⟨apart, _, rfl, ?_, ?_⟩
  · rw [lowered_program_runs_as_sheet {} "Sheet" "Program" reboundSheet _ rfl apart]
    decide +kernel
  · rw [lowered_program_runs_as_sheet {} "Sheet" "Program" reboundSheet _ rfl apart]
    decide +kernel

end FormulaSheet.LoweringCorrectness
