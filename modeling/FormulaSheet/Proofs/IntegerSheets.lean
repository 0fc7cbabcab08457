import FormulaSheet.Proofs.LoweringCorrectness

/-! Sheets of integers compute exactly, up to a multiple of `2 ^ 64`. The exact value of a formula is taken among
the unbounded integers, and so are the values of the names in it. Sums, differences and products commute with
taking remainders, so an overflow at an inner operand or in an earlier statement cannot be seen in the result. -/
namespace FormulaSheet.IntegerSheets
open Target LoweringSteps RunOutcomes SheetSemantics LoweringCorrectness GeneratedNames

/-! ## Integer sheets -/

/-- Formulas of integer literals and known names, with sums, differences, products and signs. -/
def isInteger (known : List String) : Formula → Bool
  | .number (.integer _) => true
  | .identifier name => known.contains name
  | .binary op lhs rhs => op ≠ .div && isInteger known lhs && isInteger known rhs
  | .unary _ operand => isInteger known operand
  | _ => false

/-- Statements that assign integer formulas to names of letters or only give them, over names that are assigned
before. -/
def isIntegerSheet (known : List String) : List Statement → Bool
  | [] => true
  | statement :: rest =>
    match statement.body with
    | .assignment name formula =>
      name.toList.all Char.isAlpha && isInteger known formula && isIntegerSheet (name :: known) rest
    | formula => isInteger known formula && isIntegerSheet known rest

/-- The value of an integer formula among the unbounded integers. -/
def exactValue (numbers : String → Int) : Formula → Int
  | .number (.integer value) => value.toInt
  | .identifier name => numbers name
  | .binary .add lhs rhs => exactValue numbers lhs + exactValue numbers rhs
  | .binary .sub lhs rhs => exactValue numbers lhs - exactValue numbers rhs
  | .binary .mul lhs rhs => exactValue numbers lhs * exactValue numbers rhs
  | .unary .plus operand => exactValue numbers operand
  | .unary .minus operand => -exactValue numbers operand
  | _ => 0

/-- The integer of 64 bits that differs from `exact` by a multiple of `2 ^ 64`. -/
def wrapped (exact : Int) : Int :=
  (exact + 9223372036854775808) % 18446744073709551616 - 9223372036854775808

/-- The numbers behind an assignment. -/
def assign (numbers : String → Int) (name : String) (value : Int) : String → Int :=
  fun other => if name = other then value else numbers other

/-- Two lines for each statement: its text, and its result. -/
def lines (numbers : String → Int) : List Statement → List String
  | [] => []
  | statement :: rest =>
    match statement.body with
    | .assignment name formula =>
      statement.body.text ::
        (name ++ " = " ++ Decimal.integerText (wrapped (exactValue numbers formula))) ::
        lines (assign numbers name (exactValue numbers formula)) rest
    | formula =>
      statement.body.text :: Decimal.integerText (wrapped (exactValue numbers formula)) :: lines numbers rest

/-- Both kinds of statements of an integer sheet, with the lines they give. -/
theorem integer_statement_cases (integers : isIntegerSheet known (statement :: rest)) :
    (∃ name formula, statement.body = .assignment name formula ∧ name.toList.all Char.isAlpha ∧
      isInteger known formula ∧ isIntegerSheet (name :: known) rest ∧
      ∀ numbers, lines numbers (statement :: rest) =
        statement.body.text ::
          (name ++ " = " ++ Decimal.integerText (wrapped (exactValue numbers formula))) ::
          lines (assign numbers name (exactValue numbers formula)) rest) ∨
    (isInteger known statement.body ∧ isIntegerSheet known rest ∧
      ∀ numbers, lines numbers (statement :: rest) =
        statement.body.text :: Decimal.integerText (wrapped (exactValue numbers statement.body)) ::
          lines numbers rest) := by
  cases shape : statement.body with
  | assignment name formula =>
    simp only [isIntegerSheet, shape, Bool.and_eq_true] at integers
    exact .inl ⟨name, formula, rfl, integers.1.1, integers.1.2, integers.2, fun _ => by simp [lines, shape]⟩
  | number | identifier | binary | unary | call | definition | empty =>
    simp only [isIntegerSheet, shape, Bool.and_eq_true] at integers
    exact .inr ⟨integers.1, integers.2, fun _ => by simp [lines, shape]⟩

/-! ## Lowering -/

/-- The known names are variables of integers. -/
def Declares (table : SymbolTable) (known : List String) : Prop :=
  ∀ name ∈ known, name ≠ piName ∧ ∃ field, table.get? name = some (.variable field .integer)

private theorem letters_ne_piName (letters : name.toList.all Char.isAlpha) : name ≠ piName := by
  rintro rfl
  revert letters
  decide

private theorem declares_more (declares : Declares table known) (letters : name.toList.all Char.isAlpha) :
    Declares (table.declareVariable naming name .integer).1 (name :: known) := by
  intro other member
  by_cases same : name = other
  · subst same
    exact ⟨letters_ne_piName letters, (table.declareVariable naming name .integer).2, by simp⟩
  · have earlier : other ∈ known := by
      rcases List.mem_cons.mp member with rfl | earlier
      · exact absurd rfl same
      · exact earlier
    obtain ⟨different, field, found⟩ := declares other earlier
    exact ⟨different, field, by simp [same, found]⟩

private theorem kindOf_integer (declares : Declares table known) (formula : Formula)
    (integer : isInteger known formula) :
    table.kindOf formula = .integer := by
  fun_induction isInteger known formula with
  | case1 value => rw [SymbolTable.kindOf]; simp [Formula.isFloat]
  | case2 name =>
    obtain ⟨different, field, found⟩ := declares name (by simpa using integer)
    rw [SymbolTable.kindOf_identifier table different, found]
  | case3 op lhs rhs left right =>
    simp only [Bool.and_eq_true, decide_eq_true_eq] at integer
    rw [SymbolTable.kindOf_binary, if_neg integer.1.1, left integer.1.2, right integer.2]
    rfl
  | case4 op operand inner => rw [SymbolTable.kindOf_unary, inner integer]
  | case5 => cases integer

private theorem lower_integer (declares : Declares table known) (formula : Formula) (integer : isInteger known formula)
    (line : Option Nat) : ∃ expr, formula.lower table line = .ok expr := by
  fun_induction isInteger known formula with
  | case1 value => exact ⟨_, rfl⟩
  | case2 name =>
    obtain ⟨different, field, found⟩ := declares name (by simpa using integer)
    have bound : table.value name line = .ok (.bound field) :=
      (table.value_eq_bound_iff ..).mpr ⟨different, .inl ⟨_, found⟩⟩
    exact ⟨_, by rw [Formula.lower, bound]; rfl⟩
  | case3 op lhs rhs left right =>
    simp only [Bool.and_eq_true, decide_eq_true_eq] at integer
    obtain ⟨a, loweredLeft⟩ := left integer.1.2
    obtain ⟨b, loweredRight⟩ := right integer.2
    exact ⟨_, by rw [Formula.lower, loweredLeft, loweredRight]; rfl⟩
  | case4 op operand inner =>
    obtain ⟨expr, lowered⟩ := inner integer
    cases op with
    | plus => exact ⟨expr, by rw [Formula.lower, lowered]⟩
    | minus => exact ⟨_, by rw [Formula.lower, lowered]; rfl⟩
  | case5 => cases integer

/-- Every integer sheet is lowered. -/
theorem lowering_succeeds (naming : Naming) (before : Lowering) (integers : isIntegerSheet known statements)
    (declares : Declares before.globals known) :
    ∃ final, Lowering.statements naming before statements = .ok final := by
  induction statements generalizing before known with
  | nil => exact ⟨before, rfl⟩
  | cons statement rest ih =>
    have next (state : Lowering) (lowered : before.statement naming statement = .ok state)
        (more : ∃ final, state.statements naming rest = .ok final) :
        ∃ final, before.statements naming (statement :: rest) = .ok final := by
      rw [Lowering.statements, lowered]
      exact more
    rcases integer_statement_cases integers with ⟨name, formula, shape, letters, integer, later, -⟩ |
      ⟨integer, later, -⟩
    · obtain ⟨expr, lowered⟩ := lower_integer declares formula integer statement.line
      have kind := kindOf_integer declares formula integer
      refine next _ (by rw [Lowering.statement, shape]; simp only [lowered]; rfl) (ih _ later ?_)
      simp only [kind]
      exact declares_more declares letters
    · obtain ⟨expr, lowered⟩ := lower_integer declares statement.body integer statement.line
      refine next { before with program := Lowering.printed before.program statement (.value none expr) } ?_
        (ih _ later declares)
      rw [Lowering.statement]
      split
      · rename_i shape
        simp [shape, isInteger] at integer
      · rename_i shape
        simp [shape, isInteger] at integer
      · rw [lowered]
        rfl

/-! ## Values -/

/-- Only one integer of 64 bits differs from a given integer by a multiple of `2 ^ 64`. -/
theorem wrapped_eq_iff (exact value : Int) :
    wrapped exact = value ↔ -9223372036854775808 ≤ value ∧ value ≤ 9223372036854775807 ∧
      value % 18446744073709551616 = exact % 18446744073709551616 := by
  unfold wrapped
  omega

private theorem toInt_ofInt_eq_wrapped (exact : Int) : (Int64.ofInt exact).toInt = wrapped exact := by
  rw [Int64.toInt_ofInt, Int.bmod, wrapped]
  simp only [Int64.size]
  omega

/-- The known names are bound to their numbers, as far as 64 bits hold them. -/
def Holds (env : Env) (numbers : String → Int) (known : List String) : Prop :=
  ∀ name ∈ known, name ≠ piName ∧ env name = some (.number (.long (Int64.ofInt (numbers name))))

private theorem holds_more (holds : Holds env numbers known) (letters : name.toList.all Char.isAlpha) (value : Int) :
    Holds (env.bind name (.number (.long (Int64.ofInt value)))) (assign numbers name value) (name :: known) := by
  intro other member
  by_cases same : name = other
  · subst same
    exact ⟨letters_ne_piName letters, by simp [Env.bind, assign]⟩
  · have earlier : other ∈ known := by
      rcases List.mem_cons.mp member with rfl | earlier
      · exact absurd rfl same
      · exact earlier
    obtain ⟨different, bound⟩ := holds other earlier
    exact ⟨different, by simp [Env.bind, assign, same, bound]⟩

/-- Overflow in the operands does not show in the result. -/
theorem arithmetic_ofInt (a b : Int) :
    arithmetic .add (.long (Int64.ofInt a)) (.long (Int64.ofInt b)) = .long (Int64.ofInt (a + b)) ∧
    arithmetic .sub (.long (Int64.ofInt a)) (.long (Int64.ofInt b)) = .long (Int64.ofInt (a - b)) ∧
    arithmetic .mul (.long (Int64.ofInt a)) (.long (Int64.ofInt b)) = .long (Int64.ofInt (a * b)) := by
  simp only [arithmetic, Int64.ofInt_add, Int64.ofInt_sub, Int64.ofInt_mul, Int64.ofInt_toInt, and_self]

private theorem negation_ofInt (a : Int) :
    negation (.long (Int64.ofInt a)) = .long (Int64.ofInt (-a)) := by
  simp only [negation, Int64.ofInt_neg, Int64.ofInt_toInt]

private theorem eval_integer (holds : Holds env numbers known) (formula : Formula) (integer : isInteger known formula) :
    eval env formula = pure (.long (Int64.ofInt (exactValue numbers formula))) := by
  fun_induction isInteger known formula with
  | case1 value => simp [eval, exactValue]
  | case2 name =>
    obtain ⟨different, bound⟩ := holds name (by simpa using integer)
    simp [eval, exactValue, different, bound]
  | case3 op lhs rhs left right =>
    simp only [Bool.and_eq_true, decide_eq_true_eq] at integer
    rw [eval, left integer.1.2, right integer.2, pure_bind, pure_bind]
    obtain ⟨sum, difference, product⟩ := arithmetic_ofInt (exactValue numbers lhs) (exactValue numbers rhs)
    cases op with
    | add => rw [sum, exactValue]
    | sub => rw [difference, exactValue]
    | mul => rw [product, exactValue]
    | div => exact absurd rfl integer.1.1
  | case4 op operand inner =>
    cases op with
    | plus => rw [eval, inner integer, exactValue]
    | minus => rw [eval, inner integer, pure_bind, negation_ofInt, exactValue]
  | case5 => cases integer

/-! ## Runs -/

/-- The text of several lines. -/
def joined (lines : List String) : String := String.join (lines.map (· ++ "\n"))

private theorem integer_not_declaration (integer : isInteger known formula) :
    (∀ name value, formula ≠ .assignment name value) ∧
      ∀ name parameters body, formula ≠ .definition name parameters body := by
  cases formula <;> simp_all [isInteger]

private theorem say_nothing : say "" = pure () := by
  funext console
  change EStateM.Result.ok () { console with output := console.output ++ "" } = .ok () console
  rw [String.append_empty]

private theorem say_append (first later : String) : (do say first; say later) = say (first ++ later) := by
  funext console
  change EStateM.Result.ok () { console with output := console.output ++ first ++ later } =
    .ok () { console with output := console.output ++ (first ++ later) }
  rw [String.append_assoc]

private theorem say_from_start (text : String) (input : List String) :
    say text ⟨input, ""⟩ = .ok () ⟨input, text⟩ := by
  change EStateM.Result.ok () (Console.mk input ("" ++ text)) = _
  rw [String.empty_append]

private theorem report_assigned (name : String) (exact : Int) :
    report (.assigned name (.long (Int64.ofInt exact))) =
      say (name ++ " = " ++ Decimal.integerText (wrapped exact) ++ "\n") := by
  rw [report, shown, toInt_ofInt_eq_wrapped]

private theorem report_pending (holds : Holds env numbers known) (integer : isInteger known formula) :
    report (.pending env formula) =
      say (Decimal.integerText (wrapped (exactValue numbers formula)) ++ "\n") := by
  rw [report, eval_integer holds formula integer, pure_bind, shown, toInt_ofInt_eq_wrapped]

private theorem joined_cons (line : String) (rest : List String) :
    joined (line :: rest) = line ++ "\n" ++ joined rest := by
  simp [joined, String.join_cons]

/-- Settling an integer sheet asks for nothing, and reporting it prints its lines. -/
theorem settle_integer (integers : isIntegerSheet known statements) (holds : Holds env numbers known) :
    ∃ entries, settle env statements = pure entries ∧
      reportAll entries = say (joined (lines numbers statements)) := by
  induction statements generalizing env numbers known with
  | nil => exact ⟨[], rfl, say_nothing.symm⟩
  | cons statement rest ih =>
    rcases integer_statement_cases integers with ⟨name, formula, shape, letters, integer, later, linesAre⟩ |
      ⟨integer, later, linesAre⟩
    · obtain ⟨entries, settled, reported⟩ := ih later (holds_more holds letters (exactValue numbers formula))
      refine ⟨_, by rw [settle_assignment shape, eval_integer holds formula integer, pure_bind, settled]; rfl, ?_⟩
      rw [reportAll, reported, report_assigned, linesAre, joined_cons, joined_cons, say_append, say_append]
    · obtain ⟨entries, settled, reported⟩ := ih later holds
      obtain ⟨noAssignment, noDefinition⟩ := integer_not_declaration integer
      refine ⟨_, by rw [settle_expression noAssignment noDefinition, settled]; rfl, ?_⟩
      rw [reportAll, reported, report_pending holds integer, linesAre, joined_cons, joined_cons, say_append,
        say_append]

/-! ## Lines -/

private theorem integerText_one_line (value : Int) : '\n' ∉ (Decimal.integerText value).toList := by
  have digits : '\n' ∉ Nat.toDigits 10 value.natAbs := fun member =>
    absurd (Nat.isDigit_of_mem_toDigits (by decide) (by decide) member) (by decide)
  rw [Decimal.integerText, String.toList_ofList]
  split <;> simp [digits]

private theorem letters_one_line {name : String} (letters : name.toList.all Char.isAlpha) :
    '\n' ∉ name.toList := fun member =>
  absurd (List.all_eq_true.mp letters '\n' member) (by decide)

private theorem enclosed_one_line (line : '\n' ∉ text.toList) (strength level : Nat) :
    '\n' ∉ ((Text.Operand.mk level text).enclosed strength).toList := by
  unfold Text.Operand.enclosed
  split <;> simp [line]

private theorem text_one_line (plain : ∀ name ∈ known, '\n' ∉ name.toList) (formula : Formula)
    (integer : isInteger known formula) : '\n' ∉ formula.text.toList := by
  fun_induction isInteger known formula with
  | case1 value => exact integerText_one_line _
  | case2 name => exact plain name (by simpa using integer)
  | case3 op lhs rhs left right =>
    simp only [Bool.and_eq_true, decide_eq_true_eq] at integer
    have symbol : '\n' ∉ op.symbol.toList := by cases op <;> decide
    simp [Formula.text, symbol, enclosed_one_line (left integer.1.2), enclosed_one_line (right integer.2)]
  | case4 op operand inner =>
    have symbol : '\n' ∉ op.symbol.toList := by cases op <;> decide
    simp [Formula.text, symbol, enclosed_one_line (inner integer)]
  | case5 => cases integer

/-- There are two lines for each statement, and they are single lines. -/
theorem lines_single (integers : isIntegerSheet known statements)
    (plain : ∀ name ∈ known, '\n' ∉ name.toList) (numbers : String → Int) :
    (lines numbers statements).length = 2 * statements.length ∧
      ∀ line ∈ lines numbers statements, '\n' ∉ line.toList := by
  induction statements generalizing numbers known with
  | nil => simp [lines]
  | cons statement rest ih =>
    rcases integer_statement_cases integers with ⟨name, formula, shape, letters, integer, later, linesAre⟩ |
      ⟨integer, later, linesAre⟩
    · have named := letters_one_line letters
      have body := text_one_line plain formula integer
      obtain ⟨count, single⟩ := ih later (List.forall_mem_cons.mpr ⟨named, plain⟩)
        (assign numbers name (exactValue numbers formula))
      rw [linesAre, shape]
      constructor
      · simp only [List.length_cons, count]
        omega
      · simpa [Formula.text, named, body, integerText_one_line] using single
    · have body := text_one_line plain statement.body integer
      obtain ⟨count, single⟩ := ih later plain numbers
      rw [linesAre]
      constructor
      · simp only [List.length_cons, count]
        omega
      · simpa [body, integerText_one_line] using single

/-! ## Programs -/

private theorem boundNames_alphanumeric (integers : isIntegerSheet known statements) :
    ∀ name ∈ boundNames statements, name.toList.all Char.isAlphanum := by
  induction statements generalizing known with
  | nil => simp [boundNames]
  | cons statement rest ih =>
    have split : boundNames (statement :: rest) = boundNames [statement] ++ boundNames rest := by
      simp [boundNames]
    rw [split, List.forall_mem_append]
    rcases integer_statement_cases integers with ⟨name, formula, shape, letters, -, later, -⟩ | ⟨integer, later, -⟩
    · refine ⟨?_, ih later⟩
      have alphanumeric : name.toList.all Char.isAlphanum := by
        rw [List.all_eq_true] at letters ⊢
        intro c member
        simp [Char.isAlphanum, letters c member]
      simpa [boundNames, shape] using alphanumeric
    · refine ⟨?_, ih later⟩
      have nothing : boundNames [statement] = [] := by
        cases shape : statement.body <;> simp_all [boundNames, isInteger]
      simp [nothing]

/-- **Integers are computed exactly, modulo `2 ^ 64`.** A sheet that assigns and gives integer formulas over names of
letters is lowered, and its program prints two lines for each statement on every input: the text of the statement, and
the only integer of 64 bits that differs from the exact value by a multiple of `2 ^ 64`. -/
theorem integer_sheet_computes_exactly (namespaceName className : String) (statements : List Statement)
    (integers : isIntegerSheet [] statements) :
    (∃ final, Lowering.statements {} (start namespaceName className) statements = .ok final ∧
      ∀ input, final.program.run input = ⟨joined (lines (fun _ => 0) statements), none⟩) ∧
    (lines (fun _ => 0) statements).length = 2 * statements.length ∧
    (∀ line ∈ lines (fun _ => 0) statements, '\n' ∉ line.toList) ∧
    ∀ exact value : Int, wrapped exact = value ↔ -9223372036854775808 ≤ value ∧ value ≤ 9223372036854775807 ∧
      value % 18446744073709551616 = exact % 18446744073709551616 := by
  obtain ⟨count, single⟩ := lines_single integers (by simp) fun _ => 0
  obtain ⟨final, lowered⟩ := lowering_succeeds {} (start namespaceName className) integers (by simp [Declares])
  have unbound : Holds Env.empty (fun _ => 0) [] := by simp [Holds]
  obtain ⟨entries, settled, reported⟩ := settle_integer integers unbound
  refine ⟨⟨final, lowered, fun input => ?_⟩, count, single, wrapped_eq_iff⟩
  have apart := distinguishes_of_alphanumeric (boundNames_alphanumeric integers)
  have executed : final.program.execute = say (joined (lines (fun _ => 0) statements)) := by
    rw [execute_lowered lowered apart, SheetSemantics.execute, settled, pure_bind, reported]
  rw [Program.run, executed, say_from_start]

/-- `x = 9223372036854775807`, `x = x * x - -2` and `-x`. -/
def overflowingSheet : List Statement :=
  [⟨.assignment "x" (.number (.integer 9223372036854775807)), some 1⟩,
    ⟨.assignment "x" (.binary .sub (.binary .mul (.identifier "x") (.identifier "x"))
      (.unary .minus (.number (.integer 2)))), some 2⟩,
    ⟨.unary .minus (.identifier "x"), some 3⟩]

/-- A product that overflows, and a name that is bound to it anew. -/
theorem overflowing_sheet_wraps :
    ∃ final, Lowering.statements {} (start "Sheet" "Program") overflowingSheet = .ok final ∧
      final.program.run [] =
        ⟨"x = 9223372036854775807\nx = 9223372036854775807\nx = x * x - -2\nx = 3\n-x\n-3\n", none⟩ := by
  obtain ⟨⟨final, lowered, run⟩, -⟩ :=
    integer_sheet_computes_exactly "Sheet" "Program" overflowingSheet (by decide)
  refine ⟨final, lowered, ?_⟩
  rw [run]
  decide +kernel

end FormulaSheet.IntegerSheets
