import FormulaSheet.Lowering
import FormulaSheet.Proofs.Sequencing
import FormulaSheet.Proofs.SheetSemantics

/-! Rules for runs: what the results and faults of a run satisfy (`Ensures`), when two runs do the
same up to what they return (`Agree`), and what single expressions of a program do. Later proofs
compose these and do not look at consoles. -/
namespace FormulaSheet.RunOutcomes
open Target Sequencing

variable {α β γ δ : Type}

/-! ## Results and faults -/

/-- Every result of a run is good, and every fault that ends it is allowed. -/
def Ensures (allowed : RunFault → Prop) (good : α → Prop) (run : Run α) : Prop :=
  ∀ console, match run console with
    | .ok value _ => good value
    | .error fault _ => allowed fault

theorem ensures_pure {good : α → Prop} (holds : good value) :
    Ensures allowed good (pure value : Run α) :=
  fun _ => holds

theorem ensures_throw {good : α → Prop} (holds : allowed fault) :
    Ensures allowed good (throw fault : Run α) :=
  fun _ => holds

theorem ensures_bind {run : Run α} {next : α → Run β} (first : Ensures allowed good run)
    (rest : ∀ value, good value → Ensures allowed better (next value)) :
    Ensures allowed better (run >>= next) := by
  intro console
  have begun := first console
  cases ran : run console with
  | ok value after =>
    rw [ran] at begun
    rw [bind_of_ok ran]
    exact rest value begun after
  | error fault after =>
    rw [ran] at begun
    rw [bind_of_error ran]
    exact begun

/-- Nothing is asked of the results and faults of a run. -/
theorem ensures_any (run : Run α) : Ensures (fun _ => True) (fun _ => True) run := by
  intro console
  split <;> trivial

theorem ensures_print (text : String) : Ensures allowed (fun _ => True) (print text) :=
  fun _ => trivial

private theorem ask_cases (name output : String) (input : List String) :
    (∃ value after, ask name output input = .ok value after) ∨
      ∃ after, ask name output input = .error (.noInput name) after := by
  induction input generalizing output with
  | nil => exact .inr ⟨_, rfl⟩
  | cons line rest ih =>
    unfold ask
    cases enteredNumber? line with
    | some value => exact .inl ⟨_, _, rfl⟩
    | none => exact ih _

/-- Asking for a value fails only when the input is used up. -/
theorem ensures_readNumber (holds : allowed (.noInput name)) :
    Ensures allowed (fun _ => True) (readNumber name) := by
  intro console
  rcases ask_cases name console.output console.input with ⟨value, after, asked⟩ | ⟨after, asked⟩
  · rw [readNumber, asked]
    trivial
  · rw [readNumber, asked]
    exact holds

/-- Behind a run, only what its results can be matters. -/
theorem bind_congr_of_ensures {run : Run α} {next other : α → Run β}
    (first : Ensures (fun _ => True) good run)
    (same : ∀ value, good value → next value = other value) : run >>= next = run >>= other := by
  funext console
  have begun := first console
  cases ran : run console with
  | ok value after =>
    rw [ran] at begun
    rw [bind_of_ok ran, bind_of_ok ran, same value begun]
  | error fault after => rw [bind_of_error ran, bind_of_error ran]

/-! ## Two runs -/

/-- Two runs read, print and fail alike, and their results are related. -/
def Agree (related : α → β → Prop) (left : Run α) (right : Run β) : Prop :=
  ∀ console, match left console, right console with
    | .ok a after, .ok b after' => after = after' ∧ related a b
    | .error fault after, .error fault' after' => fault = fault' ∧ after = after'
    | _, _ => False

theorem agree_pure {related : α → β → Prop} (holds : related a b) :
    Agree related (pure a : Run α) (pure b : Run β) :=
  fun _ => ⟨rfl, holds⟩

/-- A run does what it does itself, with equal results. -/
theorem agree_self {run : Run α} (first : Ensures (fun _ => True) good run) :
    Agree (fun a b => a = b ∧ good a) run run := by
  intro console
  have begun := first console
  cases ran : run console with
  | ok value after =>
    rw [ran] at begun
    exact ⟨rfl, rfl, begun⟩
  | error fault after => exact ⟨rfl, rfl⟩

theorem agree_bind {left : Run α} {right : Run β} {next : α → Run γ} {next' : β → Run δ}
    (first : Agree related left right)
    (rest : ∀ a b, related a b → Agree related' (next a) (next' b)) :
    Agree related' (left >>= next) (right >>= next') := by
  intro console
  have begun := first console
  cases ranLeft : left console with
  | ok a after =>
    cases ranRight : right console with
    | ok b after' =>
      rw [ranLeft, ranRight] at begun
      obtain ⟨rfl, holds⟩ := begun
      rw [bind_of_ok ranLeft, bind_of_ok ranRight]
      exact rest a b holds after
    | error fault after' => rw [ranLeft, ranRight] at begun; exact begun.elim
  | error fault after =>
    cases ranRight : right console with
    | ok b after' => rw [ranLeft, ranRight] at begun; exact begun.elim
    | error fault' after' =>
      rw [ranLeft, ranRight] at begun
      rw [bind_of_error ranLeft, bind_of_error ranRight]
      exact begun

/-- Behind a run, its result can be changed on one side as long as it stays related. -/
theorem agree_map_right {left : Run α} {right : Run β} {change : β → γ}
    (first : Agree related left right) (rest : ∀ a b, related a b → related' a (change b)) :
    Agree related' left (do return change (← right)) := by
  have mapped : Agree related' (left >>= pure) (right >>= fun b => pure (change b)) :=
    agree_bind first fun a b holds => agree_pure (rest a b holds)
  rwa [bind_pure] at mapped

/-- Runs that agree are followed alike by runs that are equal for related results. -/
theorem bind_eq_of_agree {left : Run α} {right : Run β} {next : α → Run γ} {next' : β → Run γ}
    (first : Agree related left right) (rest : ∀ a b, related a b → next a = next' b) :
    left >>= next = right >>= next' := by
  funext console
  have begun := first console
  cases ranLeft : left console with
  | ok a after =>
    cases ranRight : right console with
    | ok b after' =>
      rw [ranLeft, ranRight] at begun
      obtain ⟨rfl, holds⟩ := begun
      rw [bind_of_ok ranLeft, bind_of_ok ranRight, rest a b holds]
    | error fault after' => rw [ranLeft, ranRight] at begun; exact begun.elim
  | error fault after =>
    cases ranRight : right console with
    | ok b after' => rw [ranLeft, ranRight] at begun; exact begun.elim
    | error fault' after' =>
      rw [ranLeft, ranRight] at begun
      rw [bind_of_error ranLeft, bind_of_error ranRight, begun.1, begun.2]

/-! ## The console -/

theorem print_eq (text : String) : print text = SheetSemantics.say text := rfl

private theorem enteredNumber?_eq (line : String) : enteredNumber? line = SheetSemantics.numberIn? line := rfl

/-- Asking line by line finds the first line with a number, and refuses those in front of it. -/
theorem readNumber_eq (name : String) : readNumber name = SheetSemantics.entered name := by
  have asked (input : List String) (output : String) :
      ask name output input = SheetSemantics.entered name ⟨input, output⟩ := by
    induction input generalizing output with
    | nil => simp [ask, SheetSemantics.entered]
    | cons line rest ih =>
      rw [ask, enteredNumber?_eq]
      cases found : SheetSemantics.numberIn? line with
      | some number => simp [SheetSemantics.entered, List.findIdx_cons, found]
      | none =>
        dsimp only
        rw [ih]
        simp [SheetSemantics.entered, List.findIdx_cons, found, List.replicate_succ, String.append_assoc]
  funext console
  exact asked console.input console.output

/-! ## Expressions -/

variable {call : String → List Value → Run Value} {fields parameters : Bindings Value}

theorem ensures_evalAll_length (exprs : List Expr) :
    Ensures (fun _ => True) (fun values => values.length = exprs.length)
      (evalAllWith call fields parameters exprs) := by
  induction exprs with
  | nil => exact ensures_pure rfl
  | cons first rest ih =>
    rw [evalAllWith]
    refine ensures_bind (ensures_any _) fun value _ => ensures_bind ih fun values counted => ?_
    exact ensures_pure (by simp [counted])

private theorem toFloat_eq (value : Value) : value.toFloat = SheetSemantics.double value := by
  cases value <;> rfl

theorem cast_double (value : Value) : value.cast .double = .double (SheetSemantics.double value) := by
  cases value <;> rfl

theorem text_eq (value : Value) : value.text = SheetSemantics.shown value := by
  cases value <;> rfl

/-- What the machine does with the values of the arguments of a call. -/
def applied (call : String → List Value → Run Value) (callee : Callee) (values : List Value) :
    Run Value :=
  match callee with
  | .math function => return .double (← liftExcept (mathValue function values))
  | .helper helper => return .double (← liftExcept (helperValue helper values))
  | .user name => call name values

theorem eval_call (callee : Callee) (other : callee ≠ .helper .readNumber) (arguments : List Expr) :
    evalWith call fields parameters (.call callee arguments) =
      evalAllWith call fields parameters arguments >>= applied call callee := by
  rw [evalWith]
  · rfl
  · exact other

/-- The machine computes built-in functions as the sheet means them. -/
theorem applied_builtin (function : Builtin) {values : List Value} (complete : values.length = function.arity) :
    ∃ number, (∀ call, applied call function.callee values = pure (.double number)) ∧
      ∀ {name}, Builtin.ofName? name = some function →
        SheetSemantics.builtinValue? name (values.map SheetSemantics.double) = some number := by
  match values, function with
  | [x], .sin | [x], .cos | [x], .tan | [x], .sec | [x], .csc | [x], .cot | [x], .sech
  | [x], .csch | [x], .coth | [x], .sqrt | [x, y], .pow | [x, y], .root =>
    refine ⟨_, fun _ => rfl, fun named => ?_⟩
    unfold Builtin.ofName? at named
    split at named <;> cases named
    simp [SheetSemantics.builtinValue?, toFloat_eq]

/-- No other name is that of a built-in function. -/
theorem builtinValue?_eq_none (other : Builtin.ofName? name = none) (numbers : List Float) :
    SheetSemantics.builtinValue? name numbers = none := by
  unfold SheetSemantics.builtinValue?
  split <;> first | rfl | cases other

theorem builtin_callee_ne_readNumber (function : Builtin) :
    function.callee ≠ .helper .readNumber := by
  cases function <;> simp [Builtin.callee]

/-- No function of a sheet is the one that asks for a value. -/
theorem callee_ne_readNumber (function : FunctionRef) :
    function.callee ≠ .helper .readNumber := by
  cases function with
  | builtin function => exact builtin_callee_ne_readNumber function
  | user name => simp [FunctionRef.callee]

/-- Sums, differences and products of the machine are those of the sheet. -/
private theorem binary_value (plain : op ≠ .div) (a b : Value) :
    a.binary op b = .ok (SheetSemantics.arithmetic op a b) := by
  cases op with
  | div => exact absurd rfl plain
  | add => cases a <;> cases b <;> simp [Value.binary, Value.longBinary, Value.doubleBinary,
      SheetSemantics.arithmetic, toFloat_eq, Except.map]
  | sub => cases a <;> cases b <;> simp [Value.binary, Value.longBinary, Value.doubleBinary,
      SheetSemantics.arithmetic, toFloat_eq, Except.map]
  | mul => cases a <;> cases b <;> simp [Value.binary, Value.longBinary, Value.doubleBinary,
      SheetSemantics.arithmetic, toFloat_eq, Except.map]

/-- With the left operand cast, a quotient of the machine is one of doubles. -/
private theorem quotient_value (a b : Value) :
    (a.cast .double).binary .div b = .ok (SheetSemantics.arithmetic .div a b) := by
  cases a <;> cases b <;> rfl

/-- Lowered arithmetic is the arithmetic of the sheet, and never fails. -/
theorem eval_arithmetic (op : BinaryOp) (lhs rhs : Expr) :
    evalWith call fields parameters (op.lower lhs rhs) = (do
      let a ← evalWith call fields parameters lhs
      let b ← evalWith call fields parameters rhs
      return SheetSemantics.arithmetic op a b) := by
  have plain (op : BinaryOp) (different : op ≠ .div) :
      evalWith call fields parameters (.binary op lhs rhs) = (do
        let a ← evalWith call fields parameters lhs
        let b ← evalWith call fields parameters rhs
        return SheetSemantics.arithmetic op a b) := by
    rw [evalWith]
    simp only [binary_value different]
    rfl
  cases op with
  | add => exact plain .add (by simp)
  | sub => exact plain .sub (by simp)
  | mul => exact plain .mul (by simp)
  | div =>
    rw [BinaryOp.lower, evalWith, evalWith]
    simp only [bind_assoc, pure_bind, quotient_value]
    rfl

theorem neg_value (a : Value) : a.neg = SheetSemantics.negation a := by
  cases a <;> simp [Value.neg, SheetSemantics.negation]

/-! ## Calls -/

/-- A function that is found and has as many parameters as there are arguments is evaluated. -/
theorem call_found {program : Program} {function : Function} {values : List Value}
    (found : program.function? name = some function)
    (complete : function.parameters.length = values.length) (known : Bindings Value) (depth : Nat) :
    callAt program known (depth + 1) name values = (do
      let value ← evalWith (callAt program known depth) known
        (bindParameters function.parameters values) function.body
      return value.cast function.result) := by
  rw [callAt, found]
  simp only [complete, ↓reduceIte]

end FormulaSheet.RunOutcomes
