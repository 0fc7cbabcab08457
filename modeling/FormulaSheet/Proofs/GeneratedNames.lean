import Mathlib.Data.List.Nodup
import FormulaSheet.Proofs.LoweringSteps
import FormulaSheet.Target.Machine

/-! Which names a lowered program has, and when two of them are the same. Every binding of a sheet is
a name with the number of times it has been bound so far, and its field or function is named after
both. Two bindings share a name exactly when the texts of their names meet behind the stem: a name
that is written like another one, or like another one with a number of its bindings behind it. -/
namespace FormulaSheet.GeneratedNames
open Target (Program Expr Action Field Function)
open LoweringSteps

/-! ## Texts of names -/

/-- What stands behind a name that is bound for the `generation`-th time. -/
def suffix (generation : Nat) : List Char :=
  if generation ≤ 1 then [] else '_' :: Nat.toDigits 10 generation

theorem numbered_toList (name : String) (generation : Nat) :
    (Naming.numbered name generation).toList = name.toList ++ suffix generation := by
  unfold Naming.numbered suffix
  split
  · simp
  · change (name ++ "_" ++ generation.repr).toList = _
    simp

private theorem digits_injective (same : Nat.toDigits 10 g = Nat.toDigits 10 h) : g = h := by
  have value := congrArg (fun digits => Nat.ofDigitChars 10 digits 0) same
  simpa using value

/-- What stands behind the last underscore of a text is determined by the text. -/
private theorem last_underscore {text text' digits digits' : List Char} (plain : '_' ∉ digits)
    (plain' : '_' ∉ digits') (same : text ++ '_' :: digits = text' ++ '_' :: digits') :
    text = text' ∧ digits = digits' := by
  rcases List.append_eq_append_iff.mp same with ⟨between, longer, rest⟩ | ⟨between, longer, rest⟩
  · cases between with
    | nil => simp_all
    | cons first between => simp_all
  · cases between with
    | nil => simp_all
    | cons first between => simp_all

/-- A stem in front of two names makes no difference. -/
theorem numbered_behind (stem name name' : String) (g h : Nat) :
    Naming.numbered (stem ++ name) g = Naming.numbered (stem ++ name') h ↔
      Naming.numbered name g = Naming.numbered name' h := by
  simp only [← String.toList_inj, numbered_toList, String.toList_append, List.append_assoc,
    List.append_cancel_left_eq]

/-- Two numbered names are the same only if both their parts are, or if one is spelled like the
other with its number. -/
theorem numbered_eq_iff (bound : 1 ≤ g) (bound' : 1 ≤ h) (name name' : String) :
    Naming.numbered name g = Naming.numbered name' h ↔
      (name = name' ∧ g = h) ∨ (g = 1 ∧ 2 ≤ h ∧ name = Naming.numbered name' h) ∨
        (h = 1 ∧ 2 ≤ g ∧ name' = Naming.numbered name g) := by
  simp only [← String.toList_inj, numbered_toList]
  have first : suffix 1 = [] := rfl
  have later (g : Nat) (bound : 2 ≤ g) : suffix g = '_' :: Nat.toDigits 10 g := by
    rw [suffix, if_neg (by omega)]
  rcases Nat.eq_or_lt_of_le bound with rfl | large <;>
    rcases Nat.eq_or_lt_of_le bound' with rfl | large'
  · simp [first]
  · have apart : h ≠ 1 := by omega
    simp [first, apart, apart.symm, show 2 ≤ h from large']
  · have apart : g ≠ 1 := by omega
    simp [first, apart, show 2 ≤ g from large, eq_comm]
  · constructor
    · intro same
      rw [later g large, later h large'] at same
      obtain ⟨sameName, sameDigits⟩ :=
        last_underscore Nat.underscore_not_in_toDigits Nat.underscore_not_in_toDigits same
      exact .inl ⟨sameName, digits_injective sameDigits⟩
    · rintro (⟨same, rfl⟩ | ⟨rfl, -, -⟩ | ⟨rfl, -, -⟩)
      · rw [same]
      · omega
      · omega

/-! ## Bindings of a sheet -/

/-- The name that a statement assigns. -/
def assignedName? (statement : Statement) : Option String :=
  match statement.body with
  | .assignment name _ => some name
  | _ => none

/-- The name of the function that a statement defines. -/
def definedName? (statement : Statement) : Option String :=
  match statement.body with
  | .definition name _ _ => some name
  | _ => none

/-- The names that statements assign, in order. -/
def assigned (statements : List Statement) : List String := statements.filterMap assignedName?

/-- The names of the functions that statements define, in order. -/
def defined (statements : List Statement) : List String := statements.filterMap definedName?

/-- Each name with the number of its occurrences so far, its own included, behind names that were
seen before. -/
def occurrencesFrom (seen : List String) : List String → List (String × Nat)
  | [] => []
  | name :: rest => (name, seen.count name + 1) :: occurrencesFrom (seen ++ [name]) rest

theorem mem_occurrencesFrom (seen names : List String) (name : String) (generation : Nat) :
    (name, generation) ∈ occurrencesFrom seen names ↔
      seen.count name < generation ∧ generation ≤ seen.count name + names.count name := by
  induction names generalizing seen with
  | nil =>
    simp [occurrencesFrom]
  | cons first rest ih =>
    rw [occurrencesFrom, List.mem_cons, ih]
    by_cases same : first = name
    · subst same
      simp
      omega
    · have different : name ≠ first := fun eq => same eq.symm
      simp [same, different]

theorem occurrencesFrom_nodup (seen names : List String) : (occurrencesFrom seen names).Nodup := by
  induction names generalizing seen with
  | nil => simp [occurrencesFrom]
  | cons first rest ih =>
    refine List.nodup_cons.mpr ⟨?_, ih _⟩
    rw [mem_occurrencesFrom]
    simp

private theorem occurrencesFrom_append (seen names more : List String) :
    occurrencesFrom seen (names ++ more) =
      occurrencesFrom seen names ++ occurrencesFrom (seen ++ names) more := by
  induction names generalizing seen with
  | nil => simp [occurrencesFrom]
  | cons first rest ih => simp [occurrencesFrom, ih]

/-- What a table records of the names that were assigned and defined: how often each was, and for
each name its newest binding. -/
structure Recorded (naming : Naming) (assignments definitions : List String)
    (table : SymbolTable) : Prop where
  assignmentCount : ∀ name, (table.variableGenerations.get? name).getD 0 = assignments.count name
  definitionCount : ∀ name, (table.functionGenerations.get? name).getD 0 = definitions.count name
  newestVariable : ∀ {name field kind}, table.get? name = some (.variable field kind) →
    name ∈ assignments ∧ field = naming.field name (assignments.count name)
  newestFunction : ∀ {name generated arity}, table.get? name = some (.function generated arity) →
    name ∈ definitions ∧ generated = naming.function name (definitions.count name)
  noParameter : ∀ {name parameter}, table.get? name ≠ some (.parameter parameter)

theorem recorded_nothing : Recorded naming [] [] {} := by
  constructor <;> simp [SymbolTable.get?, Bindings.get?, Bindings.find?]

private theorem declared_field (recorded : Recorded naming assignments definitions table) (name : String)
    (kind : NumberKind) :
    (table.declareVariable naming name kind).2 = naming.field name (assignments.count name + 1) := by
  simp [SymbolTable.declareVariable, SymbolTable.nextGeneration, recorded.assignmentCount]

private theorem declared_function (recorded : Recorded naming assignments definitions table) (name : String)
    (arity : Nat) :
    (table.declareFunction naming name arity).2 =
      naming.function name (definitions.count name + 1) := by
  simp [SymbolTable.declareFunction, SymbolTable.nextGeneration, recorded.definitionCount]

private theorem counted_insert {generations : Bindings Nat} {seen : List String}
    (counted : ∀ name, (generations.get? name).getD 0 = seen.count name) (name other : String) :
    ((generations.insert name (SymbolTable.nextGeneration generations name)).get? other).getD 0 =
      (seen ++ [name]).count other := by
  rw [Bindings.get?_insert, SymbolTable.nextGeneration, counted]
  by_cases same : name = other
  · subst same
    simp
  · simp [same, counted]

private theorem recorded_variable (recorded : Recorded naming assignments definitions table) :
    Recorded naming (assignments ++ [name]) definitions
      (table.declareVariable naming name kind).1 := by
  refine ⟨counted_insert recorded.assignmentCount name, recorded.definitionCount, ?_, ?_, ?_⟩ <;>
    simp only [SymbolTable.get?_declareVariable, declared_field recorded]
  · intro other field kind' known
    split at known
    · simp_all
    · have old := recorded.newestVariable known
      simp_all
  · intro other generated arity known
    split at known
    · cases known
    · exact recorded.newestFunction known
  · intro other parameter known
    split at known
    · cases known
    · exact recorded.noParameter known

private theorem recorded_function (recorded : Recorded naming assignments definitions table) :
    Recorded naming assignments (definitions ++ [name])
      (table.declareFunction naming name arity).1 := by
  refine ⟨recorded.assignmentCount, counted_insert recorded.definitionCount name, ?_, ?_, ?_⟩ <;>
    simp only [SymbolTable.get?_declareFunction, declared_function recorded]
  · intro other field kind known
    split at known
    · cases known
    · exact recorded.newestVariable known
  · intro other generated arity' known
    split at known
    · simp_all
    · have old := recorded.newestFunction known
      simp_all
  · intro other parameter known
    split at known
    · cases known
    · exact recorded.noParameter known

/-- The names of the fields for assigned names. -/
def fieldNames (naming : Naming) (occurrences : List (String × Nat)) : List String :=
  occurrences.map fun (name, generation) => naming.field name generation

/-- The names of the functions for defined names. -/
def functionNames (naming : Naming) (occurrences : List (String × Nat)) : List String :=
  occurrences.map fun (name, generation) => naming.function name generation

/-- A lowered statement keeps the record and names what it adds after it. -/
theorem step_names (step : Step naming before statement expr after)
    (recorded : Recorded naming assignments definitions before.globals) :
    Recorded naming (assignments ++ assigned [statement]) (definitions ++ defined [statement])
      after.globals ∧
    after.program.fields.map (·.name) = before.program.fields.map (·.name) ++
      fieldNames naming (occurrencesFrom assignments (assigned [statement])) ∧
    after.program.functions.map (·.name) = before.program.functions.map (·.name) ++
      ((fieldNames naming (occurrencesFrom assignments (assigned [statement]))).map naming.init ++
        functionNames naming (occurrencesFrom definitions (defined [statement]))) := by
  cases step with
  | assignment shape lowered =>
    rename_i name value
    have assigns : assigned [statement] = [name] := by simp [assigned, assignedName?, shape]
    have defines : defined [statement] = [] := by simp [defined, definedName?, shape]
    rw [assigns, defines, List.append_nil]
    refine ⟨recorded_variable recorded, ?_, ?_⟩ <;>
      simp [Appended, FieldOf, InitOf, declared_field recorded, fieldNames, functionNames,
        occurrencesFrom]
  | definition shape lowered =>
    rename_i name parameters inner
    have assigns : assigned [statement] = [] := by simp [assigned, assignedName?, shape]
    have defines : defined [statement] = [name] := by simp [defined, definedName?, shape]
    rw [assigns, defines, List.append_nil]
    refine ⟨recorded_function recorded, ?_, ?_⟩ <;>
      simp [Appended, FunctionOf, declared_function recorded, fieldNames, functionNames,
        occurrencesFrom]
  | expression lowered =>
    obtain ⟨notAssignment, notDefinition⟩ := lowered_not_declaration lowered
    have assigns : assigned [statement] = [] := by simp [assigned, assignedName?]
    have defines : defined [statement] = [] := by simp [defined, definedName?]
    rw [assigns, defines, List.append_nil, List.append_nil]
    refine ⟨recorded, ?_, ?_⟩ <;>
      simp [Appended, fieldNames, functionNames, occurrencesFrom]

/-- The names of a lowered program are those of the bindings of its sheet. Its functions follow the
statements, so those of assignments and definitions stand among each other. -/
theorem steps_names (steps : Steps naming before statements exprs after)
    (recorded : Recorded naming assignments definitions before.globals) :
    Recorded naming (assignments ++ assigned statements) (definitions ++ defined statements)
      after.globals ∧
    after.program.fields.map (·.name) = before.program.fields.map (·.name) ++
      fieldNames naming (occurrencesFrom assignments (assigned statements)) ∧
    (after.program.functions.map (·.name)).Perm (before.program.functions.map (·.name) ++
      ((fieldNames naming (occurrencesFrom assignments (assigned statements))).map naming.init ++
        functionNames naming (occurrencesFrom definitions (defined statements)))) := by
  induction steps generalizing assignments definitions with
  | nil =>
    refine ⟨by simpa [assigned, defined] using recorded, ?_, ?_⟩ <;>
      simp [assigned, defined, occurrencesFrom, fieldNames, functionNames]
  | @cons before first expr middle later exprs after step rest ih =>
    obtain ⟨recordedFirst, fieldsFirst, functionsFirst⟩ := step_names step recorded
    obtain ⟨recordedLater, fieldsLater, functionsLater⟩ := ih recordedFirst
    have assigns : assigned (first :: later) = assigned [first] ++ assigned later :=
      List.filterMap_append (l := [first]) ..
    have defines : defined (first :: later) = defined [first] ++ defined later :=
      List.filterMap_append (l := [first]) ..
    rw [assigns, defines, occurrencesFrom_append, occurrencesFrom_append]
    refine ⟨by simpa using recordedLater, ?_, ?_⟩
    · simp [fieldsLater, fieldsFirst, fieldNames]
    · -- The first statement's function moves across the later fields' functions.
      refine functionsLater.trans ?_
      rw [functionsFirst]
      simp only [fieldNames, functionNames, List.map_append, List.append_assoc]
      refine .append_left _ (.append_left _ ?_)
      rw [← List.append_assoc, ← List.append_assoc]
      exact .append_right _ List.perm_append_comm

/-! ## Names that meet -/

/-- No name is written like another one, nor like a name that is bound again with the number of one
of its bindings. -/
def NoClash (names : List String) : Prop :=
  ∀ name ∈ names, ∀ other ∈ names, (sanitized name = sanitized other → name = other) ∧
    ∀ generation, 2 ≤ generation → generation ≤ names.count other →
      sanitized name ≠ Naming.numbered (sanitized other) generation

/-- The occurrences of names are told apart behind any stem exactly when no names meet. -/
theorem numbered_nodup_iff (stem : String) (names : List String) :
    ((occurrencesFrom [] names).map fun (name, generation) =>
      Naming.numbered (stem ++ sanitized name) generation).Nodup ↔ NoClash names := by
  rw [List.nodup_map_iff_inj_on (occurrencesFrom_nodup [] names)]
  simp only [Prod.forall, mem_occurrencesFrom, List.count_nil, Nat.zero_add, numbered_behind,
    Prod.mk.injEq]
  constructor
  · intro apart name member other otherMember
    have once := List.count_pos_iff.mpr member
    constructor
    · intro same
      exact (apart name 1 ⟨Nat.one_pos, once⟩ other 1
        ⟨Nat.one_pos, List.count_pos_iff.mpr otherMember⟩ (by rw [same])).1
    · intro generation again known same
      have := (apart name 1 ⟨Nat.one_pos, once⟩ other generation ⟨by omega, known⟩ same).2
      omega
  · intro clear name g ⟨positive, known⟩ other h ⟨positive', known'⟩ same
    have member : name ∈ names := List.count_pos_iff.mp (by omega)
    have otherMember : other ∈ names := List.count_pos_iff.mp (by omega)
    rcases (numbered_eq_iff positive positive' _ _).mp same with
      ⟨sameText, sameNumber⟩ | ⟨-, again, meets⟩ | ⟨-, again, meets⟩
    · exact ⟨(clear name member other otherMember).1 sameText, sameNumber⟩
    · exact absurd meets ((clear name member other otherMember).2 h again known')
    · exact absurd meets ((clear other otherMember name member).2 g again known)

/-- Among items with different keys, each is found by its own. -/
theorem find?_of_nodup {α : Type} {items : List α} {item : α} {key : α → String}
    (apart : (items.map key).Nodup) (member : item ∈ items) :
    items.find? (fun other => key other = key item) = some item := by
  induction items with
  | nil => cases member
  | cons first rest ih =>
    obtain ⟨fresh, apartRest⟩ := List.nodup_cons.mp apart
    rcases List.mem_cons.mp member with rfl | member
    · simp
    · have different : key first ≠ key item :=
        fun same => fresh (same ▸ List.mem_map_of_mem member)
      rw [List.find?_cons_of_neg (by simpa using different)]
      exact ih apartRest member

/-- By default, no function for a first value is named like a defined function. -/
theorem init_ne_function (field name : String) (generation : Nat) :
    ({} : Naming).init field ≠ ({} : Naming).function name generation := by
  intro same
  have texts := congrArg String.toList same
  simp [Naming.init, Naming.function, numbered_toList] at texts

/-- The functions of assignments and those of definitions have different stems. -/
private theorem generated_nodup_iff (assignments definitions : List String) :
    ((fieldNames {} (occurrencesFrom [] assignments)).map ({} : Naming).init ++
      functionNames {} (occurrencesFrom [] definitions)).Nodup ↔
      NoClash assignments ∧ NoClash definitions := by
  have injective : Function.Injective ({} : Naming).init := by
    intro first second same
    simpa [Naming.init] using same
  have fields : (fieldNames {} (occurrencesFrom [] assignments)).Nodup ↔ NoClash assignments :=
    numbered_nodup_iff _ assignments
  have functions : (functionNames {} (occurrencesFrom [] definitions)).Nodup ↔
      NoClash definitions := numbered_nodup_iff _ definitions
  have apart : List.Disjoint ((fieldNames {} (occurrencesFrom [] assignments)).map
      ({} : Naming).init) (functionNames {} (occurrencesFrom [] definitions)) := by
    intro name inFields inFunctions
    obtain ⟨field, -, rfl⟩ := List.mem_map.mp inFields
    obtain ⟨⟨defined, generation⟩, -, same⟩ := List.mem_map.mp inFunctions
    exact init_ne_function field defined generation same.symm
  rw [List.nodup_append', List.nodup_map_iff injective, fields, functions]
  exact ⟨fun ⟨first, second, _⟩ => ⟨first, second⟩, fun ⟨first, second⟩ => ⟨first, second, apart⟩⟩

/-- The field that a name refers to inside a function, if it is none of the parameters, is that of
its newest assignment. -/
theorem referred_field (recorded : Recorded naming assignments definitions table)
    (outer : name ∉ parameters)
    (found : (table.enterFunction naming parameters).value name line = .ok (.bound field)) :
    name ∈ assignments ∧ field = naming.field name (assignments.count name) := by
  rw [SymbolTable.value_eq_bound_iff, SymbolTable.get?_enterFunction, if_neg outer] at found
  rcases found.2 with ⟨kind, known⟩ | known
  · exact recorded.newestVariable known
  · exact absurd known recorded.noParameter

/-- **When generated names identify their bindings.** The fields of a lowered sheet have different
names exactly when no assigned names meet, and its functions exactly when moreover no defined names
meet; then every field and every function is found by its name. A parameter has the name of the field
that another name of the body refers to exactly when it is written like that name with the number of
its newest binding. -/
theorem generated_names_apart_iff (namespaceName className : String) (statements : List Statement)
    (final : Lowering)
    (lowered : Lowering.statements {} (start namespaceName className) statements = .ok final) :
    ((final.program.fields.map (·.name)).Nodup ↔ NoClash (assigned statements)) ∧
    ((final.program.functions.map (·.name)).Nodup ↔
      NoClash (assigned statements) ∧ NoClash (defined statements)) ∧
    (NoClash (assigned statements) → NoClash (defined statements) →
      (∀ field ∈ final.program.fields, final.program.field? field.name = some field) ∧
      ∀ function ∈ final.program.functions,
        final.program.function? function.name = some function) ∧
    ∀ earlier later name parameters body line,
      statements = earlier ++ ⟨.definition name parameters body, line⟩ :: later →
      ∃ middle, Lowering.statements {} (start namespaceName className) earlier = .ok middle ∧
        ∀ parameter ∈ parameters, ∀ other field, other ∉ parameters →
          (middle.globals.enterFunction {} parameters).value other line = .ok (.bound field) →
          (({} : Naming).parameter parameter = field ↔
            sanitized parameter =
              Naming.numbered (sanitized other) ((assigned earlier).count other)) := by
  obtain ⟨exprs, steps⟩ := steps_of_ok lowered
  obtain ⟨-, fieldNamesAre, functionNamesAre⟩ := steps_names steps recorded_nothing
  have fields : (final.program.fields.map (·.name)).Nodup ↔ NoClash (assigned statements) := by
    rw [fieldNamesAre]
    exact numbered_nodup_iff _ (assigned statements)
  have functions : (final.program.functions.map (·.name)).Nodup ↔
      NoClash (assigned statements) ∧ NoClash (defined statements) := by
    rw [functionNamesAre.nodup_iff]
    exact generated_nodup_iff (assigned statements) (defined statements)
  refine ⟨fields, functions, ?_, ?_⟩
  · intro clearAssigned clearDefined
    exact ⟨fun field member => find?_of_nodup (fields.mpr clearAssigned) member,
      fun function member => find?_of_nodup (functions.mpr ⟨clearAssigned, clearDefined⟩) member⟩
  · intro earlier later name parameters body line split
    rw [split, statements_append] at lowered
    cases early : Lowering.statements {} (start namespaceName className) earlier with
    | error fault => rw [early] at lowered; cases lowered
    | ok middle =>
      refine ⟨middle, rfl, ?_⟩
      intro parameter _ other field outer found
      obtain ⟨earlyExprs, earlySteps⟩ := steps_of_ok early
      have recorded := (steps_names earlySteps recorded_nothing).1
      obtain ⟨-, rfl⟩ := referred_field recorded outer found
      have single : ({} : Naming).parameter parameter =
          Naming.numbered (({} : Naming).variableStem ++ sanitized parameter) 1 := rfl
      have plain : Naming.numbered (sanitized parameter) 1 = sanitized parameter := rfl
      rw [single, Naming.field, numbered_behind, plain]
      rfl

/-- A name with a number that no binding of `x` has is kept apart from `x`. -/
theorem names_apart_beyond_last_binding :
    ∃ final, Lowering.statements {} (start "TranspiledMML" "Program")
        [⟨.assignment "x" (.number (.integer 1)), some 1⟩,
          ⟨.assignment "x" (.number (.integer 2)), some 2⟩,
          ⟨.assignment "x_3" (.number (.integer 5)), some 3⟩,
          ⟨.definition "f" ["x_3"] (.binary .mul (.identifier "x") (.identifier "x_3")), some 4⟩] =
        .ok final ∧ (final.program.fields.map (·.name)).Nodup ∧
      NoClash ["x", "x", "x_3"] ∧ NoClash ["f"] := by
  have apart := generated_names_apart_iff "TranspiledMML" "Program"
    [⟨.assignment "x" (.number (.integer 1)), some 1⟩,
      ⟨.assignment "x" (.number (.integer 2)), some 2⟩,
      ⟨.assignment "x_3" (.number (.integer 5)), some 3⟩,
      ⟨.definition "f" ["x_3"] (.binary .mul (.identifier "x") (.identifier "x_3")), some 4⟩] _ rfl
  refine ⟨_, rfl, ?_, apart.2.1.mp ?_⟩ <;> decide +kernel

/-- The second binding of `x` and the name `x_2` share a field and the function for its value, so
`x_2` is printed with the value of `x`; and a parameter `x_2` hides the `x` of its body. -/
theorem rebound_name_meets_numbered_name :
    ∃ final, Lowering.statements {} (start "TranspiledMML" "Program")
        [⟨.assignment "x" (.number (.integer 1)), some 1⟩,
          ⟨.assignment "x" (.number (.integer 2)), some 1⟩,
          ⟨.assignment "x_2" (.number (.integer 5)), some 1⟩] = .ok final ∧
      ¬ (final.program.fields.map (·.name)).Nodup ∧
      ¬ (final.program.functions.map (·.name)).Nodup ∧
      final.program.run [] = ⟨"x = 1\nx = 1\nx = 2\nx = 2\nx_2 = 5\nx_2 = 2\n", none⟩ ∧
      (final.globals.enterFunction {} ["x_2"]).value "x" none =
        .ok (.bound (({} : Naming).parameter "x_2")) := by
  refine ⟨_, rfl, ?_, ?_, ?_, ?_⟩ <;> decide +kernel

end FormulaSheet.GeneratedNames
