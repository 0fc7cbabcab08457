import Mathlib
import FormulaSheet.Proofs.ResolutionAgreement
import FormulaSheet.Proofs.TolerantReading

/-! What every statement of a sheet that is read can be relied on for. The grammar checks each condition in a place
of its own: numbers and names as they are read, calls behind their arguments, parameters behind the head of their
function. Together they hold at every depth of every formula, and lowering relies on that: where all names resolve,
an empty group is all that can be wrong. -/
namespace FormulaSheet.WellFormedSheets
open Markup (Element)
open FormulaReading ResolutionAgreement Sequencing

/-! ## Formulas and bodies that are well formed -/

/-- What is asked of one node of a formula. A declaration is none that a formula can have. -/
def Proper : Formula → Prop
  | .number (.float value) => value.isFinite
  | .identifier name => name ≠ ""
  | .call name arguments =>
    name ≠ "" ∧ ∀ function, Builtin.ofName? name = some function → arguments.length = function.arity
  | .assignment _ _ | .definition _ _ _ => False
  | _ => True

/-- A formula is sound if all of its nodes are proper, itself included. -/
def Sound (formula : Formula) : Prop := ∀ node ∈ formula.preorder, Proper node

/-- A name that a statement may give a meaning to. -/
def Bindable (name : String) : Prop := name ≠ "" ∧ name ≠ piName

/-- The body of a statement is a declaration of something sound, or sound itself. -/
inductive WellFormed : Formula → Prop where
  | assignment (bindable : Bindable name) (sound : Sound value) : WellFormed (.assignment name value)
  | definition (bindable : Bindable name) (notBuiltin : Builtin.ofName? name = none)
      (each : ∀ parameter ∈ parameters, Bindable parameter) (distinct : parameters.Nodup) (sound : Sound body) :
      WellFormed (.definition name parameters body)
  | expression (sound : Sound body) : WellFormed body

theorem mem_preorderList : node ∈ Formula.preorderList formulas ↔ ∃ formula ∈ formulas, node ∈ formula.preorder := by
  induction formulas with
  | nil => simp [Formula.preorderList]
  | cons formula rest ih => simp [Formula.preorderList, ih]

@[simp]
theorem sound_binary : Sound (.binary op lhs rhs) ↔ Sound lhs ∧ Sound rhs := by
  simp [Sound, Formula.preorder, Proper, or_imp, forall_and]

@[simp]
theorem sound_unary : Sound (.unary op operand) ↔ Sound operand := by
  simp [Sound, Formula.preorder, Proper]

@[simp]
theorem sound_call :
    Sound (.call name arguments) ↔ Proper (.call name arguments) ∧ ∀ argument ∈ arguments, Sound argument := by
  simp only [Sound, Formula.preorder, List.mem_cons, mem_preorderList, forall_eq_or_imp]
  grind

@[simp]
theorem sound_empty : Sound .empty := by
  simp [Sound, Formula.preorder, Proper]

/-- Multiplying sound factors is sound, and so is leaving out the empty ones. -/
theorem sound_product (each : ∀ factor ∈ factors, Sound factor) : Sound (Formula.product factors) := by
  have multiplied (first : Formula) (rest : List Formula) (sound : Sound first)
      (others : ∀ factor ∈ rest, Sound factor) : Sound (rest.foldl (.binary .mul) first) := by
    induction rest generalizing first with
    | nil => exact sound
    | cons next rest ih =>
      obtain ⟨soundNext, later⟩ := List.forall_mem_cons.mp others
      exact ih _ (sound_binary.mpr ⟨sound, soundNext⟩) later
  have kept : ∀ factor ∈ factors.filter (!·.isEmpty), Sound factor :=
    fun factor member => each factor (List.mem_of_mem_filter member)
  rw [Formula.product]
  split
  · exact sound_empty
  · rename_i first rest shape
    obtain ⟨sound, others⟩ := List.forall_mem_cons.mp (shape ▸ kept)
    exact multiplied first rest sound others

/-! ## Whatever is read -/

/-- Every value that is read has the property. -/
def Yields {α : Type} (holds : α → Prop) : Reading α := fun _ value _ => holds value

section Lists

variable {α : Type} {item : Reading α} {holds : α → Prop}

private theorem bracketedItems_yield (each : Entails item (Yields holds))
    (read : BracketedItems item bracket before values after) : ∀ value ∈ values, holds value := by
  induction read with
  | last read closes => exact List.forall_mem_singleton.mpr (each read)
  | next read separates rest ih => exact List.forall_mem_cons.mpr ⟨each read, ih⟩

private theorem bracketed_yield (each : Entails item (Yields holds))
    (read : Bracketed item bracket before values after) :
    ∀ value ∈ values, holds value := by
  cases read with
  | none opens closes => exact List.forall_mem_nil _
  | items opens read => exact bracketedItems_yield each read

private theorem listing_yield (each : Entails item (Yields holds)) (read : Listing item before values) :
    ∀ value ∈ values, holds value := by
  cases read with
  | bracketed read => exact bracketed_yield each read
  | bare read =>
    induction read with
    | none => exact List.forall_mem_nil _
    | last read => exact List.forall_mem_singleton.mpr (each read)
    | next read separates rest ih => exact List.forall_mem_cons.mpr ⟨each read, ih⟩

private theorem heldList_yield (each : Entails item (Yields holds)) (read : HeldList item element values) :
    ∀ value ∈ values, holds value := by
  cases read with
  | listing read => exact listing_yield each read
  | fenced read =>
    generalize (element.core element.line).row.rest = inside at read
    induction read with
    | none => exact List.forall_mem_nil _
    | comma separates rest ih => exact ih
    | next read rest ih => exact List.forall_mem_cons.mpr ⟨each read, ih⟩

end Lists

section Formulas

private theorem termRest_sound {factor : Reading Formula} (each : Entails factor (Yields Sound))
    (read : TermRest factor run before value after) (sound : ∀ factor ∈ run, Sound factor) : Sound value := by
  induction read with
  | done => exact sound_product sound
  | signed op multiplies spells read rest ih =>
    exact ih (List.forall_mem_singleton.mpr (sound_binary.mpr ⟨sound_product sound, each read⟩))
  | beside read rest ih =>
    exact ih (List.forall_mem_append.mpr ⟨sound, List.forall_mem_singleton.mpr (each read)⟩)

private theorem sumRest_sound {term : Reading Formula} (each : Entails term (Yields Sound))
    (read : SumRest term sum before value after) (sound : Sound sum) : Sound value := by
  induction read with
  | done => exact sound
  | next op adds spells read rest ih => exact ih (sound_binary.mpr ⟨sound, each read⟩)

/-- A literal that is not an integer is finite. -/
theorem sound_number (spells : Number.ofText? text = some value) : Sound (.number value) := by
  have finite : Proper (.number value) := by
    unfold Number.ofText? Number.ofTrimmed? at spells
    split at spells
    · cases spells
      exact trivial
    · split at spells
      · split at spells
        · rename_i finite
          cases spells
          exact finite
        · cases spells
      · cases spells
  simpa [Sound, Formula.preorder] using finite

private theorem ne_empty_of_named {name : String} (named : name.isEmpty = false) : name ≠ "" := by
  rintro rfl
  cases named

/-- A form that stands for a built-in function has the operands of the function. -/
theorem sound_builtin (function : Builtin) (named : Builtin.ofName? name = some function)
    (count : arguments.length = function.arity) (each : ∀ argument ∈ arguments, Sound argument) :
    Sound (.call name arguments) := by
  refine sound_call.mpr ⟨⟨?_, fun other known => ?_⟩, each⟩
  · rintro rfl
    cases named
  · rw [named] at known
    cases known
    exact count

private theorem pair_sound {expression : Reading Formula} (expressions : Entails expression (Yields Sound))
    (read : Pair expression children first second) : Sound first ∧ Sound second := by
  obtain ⟨left, right, -, readLeft, readRight⟩ := read.shape
  exact ⟨expressions readLeft, expressions readRight⟩

private theorem factorForm_sound {factor expression : Reading Formula} (factors : Entails factor (Yields Sound))
    (expressions : Entails expression (Yields Sound)) : Entails (FactorForm factor expression) (Yields Sound) := by
  intro before value after read
  cases read with
  | number tag spells => exact sound_number spells
  | identifier tag named =>
    simpa [Yields, Sound, Formula.preorder, Proper] using ne_empty_of_named named
  | call tag named applies read fits =>
    refine sound_call.mpr ⟨⟨ne_empty_of_named named, fun function known => fits _ ?_⟩, ?_⟩
    · rw [Builtin.arityOf?, known, Option.map_some]
    · cases read with
      | bracketed read => exact bracketed_yield expressions read
      | element read => exact heldList_yield expressions read
  | emptyGroup tag none => exact sound_empty
  | group tag read =>
    have inside : Sound value := expressions read
    exact inside
  | signed op spells read => exact sound_unary.mpr (factors read)
  | enclosed opens read closes =>
    have inside : Sound value := expressions read
    exact inside
  | fraction tag read => exact sound_binary.mpr (pair_sound expressions read)
  | power tag read => exact sound_builtin .pow rfl rfl (by simpa using pair_sound expressions read)
  | root tag read => exact sound_builtin .root rfl rfl (by simpa using pair_sound expressions read)
  | squareRoot tag read =>
    have inside : Sound _ := expressions read
    exact sound_builtin .sqrt rfl rfl (List.forall_mem_singleton.mpr inside)

private theorem sound_all : Compositional (Yields Sound) where
  ofTerm := by
    rintro factor each before value after ⟨first, middle, read, rest⟩
    exact termRest_sound each rest (List.forall_mem_singleton.mpr (each read))
  ofSum := by
    rintro term each before value after ⟨first, middle, read, rest⟩
    exact sumRest_sound each rest (each read)
  ofFactor := factorForm_sound

end Formulas

/-! ## Statements -/

private theorem name_ne_empty : Entails Name (Yields (· ≠ "")) := by
  intro before name after read
  cases read with
  | intro tag named => exact ne_empty_of_named named

/-- Parameters that pass the check are neither the circle constant nor repeated. -/
theorem parameters_checked (checked : Grammar.checkParameters name line seen parameters = .ok ()) :
    parameters.Nodup ∧ ∀ parameter ∈ parameters, parameter ≠ piName ∧ parameter ∉ seen := by
  fun_induction Grammar.checkParameters name line seen parameters with
  | case1 seen => simp
  | case2 seen rest => cases checked
  | case3 seen parameter rest notConstant repeated => cases checked
  | case4 seen parameter rest notConstant fresh ih =>
    obtain ⟨distinct, each⟩ := ih checked
    refine ⟨List.nodup_cons.mpr ⟨fun again => ?_, distinct⟩, List.forall_mem_cons.mpr ⟨⟨notConstant, fresh⟩, ?_⟩⟩
    · exact (each parameter again).2 List.mem_cons_self
    · exact fun other member => ⟨(each other member).1, fun old => (each other member).2 (List.mem_cons_of_mem _ old)⟩

private theorem parameters_named (read : Parameters rest parameters) : ∀ parameter ∈ parameters, parameter ≠ "" := by
  have each := entails_trans gives_identifier name_ne_empty
  cases read with
  | held shape read => exact heldList_yield each read
  | listing read => exact listing_yield each read

private theorem body_wellFormed (read : BodyForm (Gives Grammar.expression) before body) : WellFormed body := by
  have expressions := expression_entails sound_all
  cases read with
  | assignment equals named notConstant read =>
    exact .assignment ⟨name_ne_empty named, notConstant⟩ (expressions read)
  | definition equals tag head read =>
    obtain ⟨sign, rest, applies, named, listed⟩ := head.shape
    obtain ⟨distinct, each⟩ := parameters_checked head.checked
    refine .definition ⟨name_ne_empty named, head.notConstant⟩ head.notBuiltin ?_ distinct (expressions read)
    exact fun parameter member => ⟨parameters_named listed parameter member, (each parameter member).1⟩
  | expression read => exact .expression (expressions read)

/-- Each statement of a sheet is read from an element, whichever way the sheet is read. -/
theorem statement_read (parsed : Sheet.ofText skipFaulty text = .ok outcome)
    (member : statement ∈ outcome.statements) : ∃ container, Statement.ofElement container = .ok statement := by
  have accepted {root : Element} (given : statement ∈ (Sheet.containers root).filterMap TolerantReading.accepted?) :
      ∃ container, Statement.ofElement container = .ok statement := by
    obtain ⟨container, -, accepted⟩ := List.mem_filterMap.mp given
    unfold TolerantReading.accepted? at accepted
    split at accepted
    · rename_i read
      cases accepted
      exact ⟨container, read⟩
    · cases accepted
  unfold Sheet.ofText at parsed
  split at parsed
  · rename_i root markup
    cases skipFaulty with
    | true =>
      rw [TolerantReading.ofElement_tolerant] at parsed
      cases parsed
      exact accepted member
    | false =>
      rw [TolerantReading.ofElement_strict] at parsed
      split at parsed
      · cases parsed
        exact accepted member
      · cases parsed
  · cases parsed

private theorem statement_wellFormed (parsed : Sheet.ofText skipFaulty text = .ok outcome)
    (member : statement ∈ outcome.statements) : WellFormed statement.body := by
  obtain ⟨container, read⟩ := statement_read parsed member
  exact body_wellFormed (statement_ok read).2.2

/-! ## The node that a fault of lowering comes from -/

/-- The ways in which a node has no expression. -/
inductive Blamed (scope : SymbolTable) (line : Option Nat) : Formula → Fault → Prop where
  | value (missing : scope.value name line = .error fault) : Blamed scope line (.identifier name) fault
  | function (missing : scope.function name arguments.length line = .error fault) :
      Blamed scope line (.call name arguments) fault
  | assignment : Blamed scope line (.assignment name value) (.unsupported .nestedDeclaration line)
  | definition : Blamed scope line (.definition name parameters body) (.unsupported .nestedDeclaration line)
  | empty : Blamed scope line .empty (.unsupported .emptyExpression line)

mutual

/-- A formula that is not lowered has a node to blame. -/
theorem lower_blamed (formula : Formula) (failed : formula.lower scope line = .error fault) :
    ∃ node ∈ formula.preorder, Blamed scope line node fault := by
  cases formula with
  | number value => cases value <;> cases failed
  | identifier name =>
    rw [Formula.lower] at failed
    rcases except_bind_error failed with missing | ⟨ref, found, rest⟩
    · exact ⟨_, List.mem_singleton_self _, .value missing⟩
    · cases rest
  | binary op lhs rhs =>
    rw [Formula.lower] at failed
    rcases except_bind_error failed with left | ⟨a, loweredLeft, rest⟩
    · obtain ⟨node, member, blamed⟩ := lower_blamed lhs left
      exact ⟨node, List.mem_cons_of_mem _ (List.mem_append_left _ member), blamed⟩
    · rcases except_bind_error rest with right | ⟨b, loweredRight, rest⟩
      · obtain ⟨node, member, blamed⟩ := lower_blamed rhs right
        exact ⟨node, List.mem_cons_of_mem _ (List.mem_append_right _ member), blamed⟩
      · cases rest
  | unary op operand =>
    have inner : operand.lower scope line = .error fault := by
      cases op with
      | plus => rwa [Formula.lower] at failed
      | minus =>
        rw [Formula.lower] at failed
        rcases except_bind_error failed with inner | ⟨a, loweredInner, rest⟩
        · exact inner
        · cases rest
    obtain ⟨node, member, blamed⟩ := lower_blamed operand inner
    exact ⟨node, List.mem_cons_of_mem _ member, blamed⟩
  | call name arguments =>
    rw [Formula.lower] at failed
    rcases except_bind_error failed with missing | ⟨function, found, rest⟩
    · exact ⟨_, List.mem_cons_self, .function missing⟩
    · rcases except_bind_error rest with inner | ⟨exprs, loweredAll, rest⟩
      · obtain ⟨node, member, blamed⟩ := lowerAll_blamed arguments inner
        exact ⟨node, List.mem_cons_of_mem _ member, blamed⟩
      · cases rest
  | assignment name value => cases failed; exact ⟨_, List.mem_cons_self, .assignment⟩
  | definition name parameters body => cases failed; exact ⟨_, List.mem_cons_self, .definition⟩
  | empty => cases failed; exact ⟨_, List.mem_cons_self, .empty⟩

private theorem lowerAll_blamed (formulas : List Formula)
    (failed : Formula.lowerAll scope line formulas = .error fault) :
    ∃ node ∈ Formula.preorderList formulas, Blamed scope line node fault := by
  cases formulas with
  | nil => cases failed
  | cons formula rest =>
    rw [Formula.lowerAll] at failed
    rcases except_bind_error failed with first | ⟨expr, lowered, others⟩
    · obtain ⟨node, member, blamed⟩ := lower_blamed formula first
      exact ⟨node, List.mem_append_left _ member, blamed⟩
    · rcases except_bind_error others with later | ⟨exprs, loweredAll, done⟩
      · obtain ⟨node, member, blamed⟩ := lowerAll_blamed rest later
        exact ⟨node, List.mem_append_right _ member, blamed⟩
      · cases done

end

/-- Looking up a name never gives one of the faults of a missing value. -/
theorem value_not_noValue (missing : SymbolTable.value scope name line = .error fault) : ¬ NoValue other fault := by
  unfold SymbolTable.value at missing
  repeat' split at missing
  all_goals cases missing
  simp [NoValue]

private theorem function_not_noValue (missing : SymbolTable.function scope name count line = .error fault) :
    ¬ NoValue other fault := by
  unfold SymbolTable.function SymbolTable.checkArity at missing
  repeat' split at missing
  all_goals cases missing
  all_goals simp [NoValue]

/-- A sound formula lacks a value only where it has an empty group. -/
theorem empty_of_noValue (sound : Sound formula) (failed : formula.lower scope line = .error fault)
    (lacks : NoValue other fault) : .empty ∈ formula.preorder ∧ fault = .unsupported .emptyExpression line := by
  obtain ⟨node, member, blamed⟩ := lower_blamed formula failed
  cases blamed with
  | value missing => exact absurd lacks (value_not_noValue missing)
  | function missing => exact absurd lacks (function_not_noValue missing)
  | assignment => exact (sound _ member).elim
  | definition => exact (sound _ member).elim
  | empty => exact ⟨member, rfl⟩

private theorem statement_empty {statement : Statement} (wellFormed : WellFormed statement.body)
    (failed : Lowering.statement naming before statement = .error fault) (lacks : NoValue other fault) :
    .empty ∈ statement.body.preorder ∧ fault = .unsupported .emptyExpression statement.line := by
  obtain ⟨body, line⟩ := statement
  unfold Lowering.statement at failed
  cases wellFormed with
  | assignment bindable sound =>
    rcases except_bind_error failed with inner | ⟨value, lowered, rest⟩
    · obtain ⟨member, same⟩ := empty_of_noValue sound inner lacks
      exact ⟨List.mem_cons_of_mem _ member, same⟩
    · cases rest
  | definition bindable notBuiltin each distinct sound =>
    rcases except_bind_error failed with inner | ⟨value, lowered, rest⟩
    · obtain ⟨member, same⟩ := empty_of_noValue sound inner lacks
      exact ⟨List.mem_cons_of_mem _ member, same⟩
    · cases rest
  | expression sound =>
    split at failed
    · rename_i name value shape
      cases shape
      exact (sound _ List.mem_cons_self).elim
    · rename_i name parameters value shape
      cases shape
      exact (sound _ List.mem_cons_self).elim
    · rcases except_bind_error failed with inner | ⟨value, lowered, rest⟩
      · exact empty_of_noValue sound inner lacks
      · cases rest

/-- Lowering a sheet fails with the fault of one of its statements. -/
theorem statements_blamed (failed : Lowering.statements naming before statements = .error fault) :
    ∃ statement ∈ statements, ∃ state, Lowering.statement naming state statement = .error fault := by
  induction statements generalizing before with
  | nil => cases failed
  | cons first later ih =>
    rw [Lowering.statements] at failed
    split at failed
    · obtain ⟨statement, member, fails⟩ := ih failed
      exact ⟨statement, List.mem_cons_of_mem _ member, fails⟩
    · rename_i blamed
      cases failed
      exact ⟨first, List.mem_cons_self, before, blamed⟩

/-- **Every sheet that is read is well formed.** Declarations stand only at the top of a statement, built-in functions
have their arguments at every depth, names are not empty, floats are finite, and what is declared is neither the circle
constant nor a built-in function nor a repeated parameter. If such a sheet resolves, the only fault that lowering it can
have is that of an empty group in one of its statements. -/
theorem sheets_read_are_well_formed (skipFaulty : Bool) (text : String) (outcome : Sheet.Outcome)
    (parsed : Sheet.ofText skipFaulty text = .ok outcome) :
    (∀ statement ∈ outcome.statements, WellFormed statement.body) ∧
    ∀ (naming : Naming) (namespaceName className : String) (fault : Fault),
      (Resolution.ofStatements naming outcome.statements).fault = none →
      Lowering.statements naming (LoweringSteps.start namespaceName className) outcome.statements = .error fault →
      ∃ statement ∈ outcome.statements, .empty ∈ statement.body.preorder ∧
        fault = .unsupported .emptyExpression statement.line := by
  refine ⟨fun statement => statement_wellFormed parsed, ?_⟩
  intro naming namespaceName className fault clean failed
  obtain ⟨other, -, lacks⟩ := statements_error rfl clean failed
  obtain ⟨statement, member, state, blamed⟩ := statements_blamed failed
  exact ⟨statement, member, statement_empty (statement_wellFormed parsed member) blamed lacks⟩

/-- A fraction without a denominator, an assignment, and a sum whose second operand is an empty group. -/
def sumWithEmptyGroup : String :=
  "<p><math><mfrac><mn>1</mn></mfrac></math><math><mi>x</mi><mo>=</mo><mn>2</mn></math>" ++
    "<math><msup><mi>x</mi><mn>2</mn></msup><mo>+</mo><mrow></mrow></math></p>"

theorem empty_group_is_the_only_fault :
    ∃ outcome, Sheet.ofText true sumWithEmptyGroup = .ok outcome ∧ outcome.statements.length = 2 ∧
      (∀ statement ∈ outcome.statements, WellFormed statement.body) ∧
      ∃ fault, Lowering.statements {} (LoweringSteps.start "Sheet" "Program") outcome.statements = .error fault ∧
        ∃ statement ∈ outcome.statements, .empty ∈ statement.body.preorder ∧
          fault = .unsupported .emptyExpression statement.line := by
  have read : Sheet.ofText true sumWithEmptyGroup =
      .ok ⟨[⟨.assignment "x" (.number (.integer 2)), some 1⟩,
        ⟨.binary .add (.call "pow" [.identifier "x", .number (.integer 2)]) .empty, some 1⟩],
        [.arity "<mfrac>" 2 1 (some 1)]⟩ := by cbv
  obtain ⟨formed, only⟩ := sheets_read_are_well_formed true sumWithEmptyGroup _ read
  exact ⟨_, read, rfl, formed, _, rfl, only {} "Sheet" "Program" _ rfl rfl⟩

end FormulaSheet.WellFormedSheets
