import FormulaSheet.Proofs.RunOutcomes

/-! Runs of one program on an input and on the same input with more lines behind it. The two do the same until the
shorter input is used up. A run that gets that far stops at the question it has just printed, with nothing left unread;
any other run never looks at the lines behind, and leaves them unread. -/
namespace FormulaSheet.LongerInput
open Target RunOutcomes Sequencing

variable {α β : Type}

/-- The console with more lines behind its input. -/
def followed (console : Console) (more : List String) : Console := ⟨console.input ++ more, console.output⟩

/-- The console that a run leaves, whether it failed or not. -/
def left : EStateM.Result RunFault Console α → Console
  | .ok _ after | .error _ after => after

/-- What the run on a longer input gives, where the run on the shorter one has given a result. -/
inductive Carries (more : List String) :
    EStateM.Result RunFault Console α → EStateM.Result RunFault Console α → Prop where
  | value : Carries more (.ok value after) (.ok value (followed after more))
  | fault (fed : ∀ name, fault ≠ .noInput name) :
      Carries more (.error fault after) (.error fault (followed after more))
  | starved (used : after.input = []) (goesOn : (left longer).output = after.output ++ printed) :
      Carries more (.error (.noInput name) after) longer

/-- A run only adds to what is printed, and does the same on a longer input as long as it is not starved. -/
structure Continues (run : Run α) : Prop where
  appends : ∀ console, ∃ printed, (left (run console)).output = console.output ++ printed
  carries : ∀ console more, Carries more (run console) (run (followed console more))

/-! ## Steps -/

private theorem continues_pure (value : α) : Continues (pure value : Run α) where
  appends _ := ⟨"", String.append_empty.symm⟩
  carries _ _ := .value

private theorem continues_throw (fed : ∀ name, fault ≠ .noInput name) : Continues (throw fault : Run α) where
  appends _ := ⟨"", String.append_empty.symm⟩
  carries _ _ := .fault fed

private theorem continues_print (text : String) : Continues (print text) where
  appends _ := ⟨text, rfl⟩
  carries _ _ := .value

/-- A computation that fails, if it does, for other reasons than its input. -/
def Fed (computed : Except RunFault α) : Prop := ∀ name, computed ≠ .error (.noInput name)

private theorem fed_bind {computed : Except RunFault α} {next : α → Except RunFault β} (first : Fed computed)
    (rest : ∀ value, Fed (next value)) : Fed (computed >>= next) := by
  cases computed with
  | ok value => exact rest value
  | error fault => exact fun name starved => first name (by cases starved; rfl)

private theorem continues_liftExcept {computed : Except RunFault α} (fed : Fed computed) :
    Continues (liftExcept computed : Run α) := by
  cases computed with
  | ok value => exact continues_pure value
  | error fault => exact continues_throw fun name same => fed name (by rw [same])

/-- What follows a run prints behind what the run has printed. -/
theorem bind_appends {run : Run α} {next : α → Run β} (rest : ∀ value, Continues (next value)) (console : Console) :
    ∃ printed, (left ((run >>= next) console)).output = (left (run console)).output ++ printed := by
  cases ran : run console with
  | ok value after =>
    rw [bind_of_ok ran]
    exact (rest value).appends after
  | error fault after =>
    rw [bind_of_error ran]
    exact ⟨"", String.append_empty.symm⟩

private theorem continues_bind {run : Run α} {next : α → Run β} (first : Continues run)
    (rest : ∀ value, Continues (next value)) : Continues (run >>= next) := by
  refine ⟨fun console => ?_, fun console more => ?_⟩
  · obtain ⟨early, earlyIs⟩ := first.appends console
    obtain ⟨late, lateIs⟩ := bind_appends rest console
    exact ⟨early ++ late, by rw [lateIs, earlyIs, String.append_assoc]⟩
  · have begun := first.carries console more
    cases ran : run console with
    | ok value after =>
      rw [ran] at begun
      cases begunLonger : run (followed console more) with
      | error fault other => rw [begunLonger] at begun; cases begun
      | ok same other =>
        rw [begunLonger] at begun
        cases begun
        rw [bind_of_ok ran, bind_of_ok begunLonger]
        exact (rest value).carries after more
    | error fault after =>
      rw [ran] at begun
      rw [bind_of_error ran]
      generalize longerIs : run (followed console more) = longer at begun
      cases begun with
      | fault fed =>
        rw [bind_of_error longerIs]
        exact .fault fed
      | starved used goesOn =>
        obtain ⟨late, lateIs⟩ := bind_appends rest (followed console more)
        exact .starved used (by rw [lateIs, longerIs, goesOn, String.append_assoc])

private theorem continues_map {run : Run α} (change : α → β) (first : Continues run) :
    Continues (run >>= fun value => pure (change value)) :=
  continues_bind first fun value => continues_pure (change value)

/-! ## Questions -/

/-- The question itself is printed first, whatever the lines are. -/
theorem ask_appends (name output : String) (input : List String) :
    ∃ printed, (left (ask name output input)).output = output ++ name ++ " = " ++ printed := by
  induction input generalizing output with
  | nil => exact ⟨"", String.append_empty.symm⟩
  | cons line rest ih =>
    unfold ask
    split
    · exact ⟨"", String.append_empty.symm⟩
    · obtain ⟨printed, printedIs⟩ := ih (output ++ name ++ " = Invalid number, try again.\n")
      have again : " = Invalid number, try again.\n" = " = " ++ "Invalid number, try again.\n" := rfl
      exact ⟨"Invalid number, try again.\n" ++ (name ++ " = " ++ printed), by
        rw [printedIs, again]
        simp only [String.append_assoc]⟩

/-- A question that no line has answered is put to the lines behind. -/
theorem ask_carries (name output : String) (input more : List String) :
    Carries more (ask name output input) (ask name output (input ++ more)) := by
  induction input generalizing output with
  | nil =>
    obtain ⟨printed, printedIs⟩ := ask_appends name output more
    exact .starved rfl printedIs
  | cons line rest ih =>
    rw [List.cons_append, ask, ask]
    split
    · exact .value
    · exact ih _

private theorem continues_readNumber (name : String) : Continues (readNumber name) where
  appends console := by
    obtain ⟨printed, printedIs⟩ := ask_appends name console.output console.input
    exact ⟨name ++ " = " ++ printed, by rw [readNumber, printedIs]; simp only [String.append_assoc]⟩
  carries console more := ask_carries name console.output console.input more

/-! ## Expressions -/

private theorem fed_binary (op : BinaryOp) (a b : Value) : Fed (a.binary op b) := by
  have ofLongs (x y : Int64) : Fed ((Value.longBinary op x y).map Value.long) := by
    unfold Value.longBinary
    cases op with
    | add | sub | mul => exact nofun
    | div =>
      dsimp only
      split
      · exact nofun
      · split <;> exact nofun
  unfold Value.binary
  split
  · exact ofLongs _ _
  · exact nofun

private theorem fed_argument (arguments : List Value) (index : Nat) : Fed (argument arguments index) := by
  unfold argument
  split <;> exact nofun

private theorem fed_mathValue (function : MathFunction) (arguments : List Value) : Fed
    (mathValue function arguments) := by
  refine fed_bind (fed_argument arguments 0) fun x => ?_
  cases function with
  | sin | cos | tan | sqrt => exact nofun
  | pow => exact fed_bind (fed_argument arguments 1) fun y => nofun

private theorem fed_helperValue (helper : Helper) (arguments : List Value) : Fed (helperValue helper arguments) := by
  refine fed_bind (fed_argument arguments 0) fun x => ?_
  cases helper with
  | sec | csc | cot | sech | csch | coth | readNumber => exact nofun
  | nthRoot => exact fed_bind (fed_argument arguments 1) fun y => nofun

variable {call : String → List Value → Run Value} {fields parameters : Bindings Value}

mutual

private theorem continues_eval (calls : ∀ name values, Continues (call name values)) :
    (expr : Expr) → Continues (evalWith call fields parameters expr)
  | .long value => by rw [evalWith]; exact continues_pure _
  | .double value => by rw [evalWith]; exact continues_pure _
  | .pi => by rw [evalWith]; exact continues_pure _
  | .string text => by rw [evalWith]; exact continues_throw nofun
  | .variable name => by
    rw [evalWith]
    split
    · exact continues_pure _
    · exact continues_throw nofun
  | .binary op lhs rhs => by
    rw [evalWith]
    refine continues_bind (continues_eval calls lhs) fun a => continues_bind (continues_eval calls rhs) fun b => ?_
    exact continues_liftExcept (fed_binary op a b)
  | .neg operand => by
    rw [evalWith]
    exact continues_map _ (continues_eval calls operand)
  | .cast ty operand => by
    rw [evalWith]
    exact continues_map _ (continues_eval calls operand)
  | .call callee arguments => by
    by_cases asks : callee = .helper .readNumber
    · subst asks
      unfold evalWith
      split
      · exact continues_map _ (continues_readNumber _)
      · exact continues_throw nofun
    · rw [eval_call callee asks]
      refine continues_bind (continues_evalAll calls arguments) fun values => ?_
      unfold applied
      split
      · exact continues_map _ (continues_liftExcept (fed_mathValue _ values))
      · exact continues_map _ (continues_liftExcept (fed_helperValue _ values))
      · exact calls _ values

private theorem continues_evalAll (calls : ∀ name values, Continues (call name values)) :
    (exprs : List Expr) → Continues (evalAllWith call fields parameters exprs)
  | [] => by rw [evalAllWith]; exact continues_pure _
  | first :: rest => by
    rw [evalAllWith]
    exact continues_bind (continues_eval calls first) fun value => continues_map _ (continues_evalAll calls rest)

end

/-! ## Programs -/

private theorem continues_call (program : Program) (known : Bindings Value) (depth : Nat) :
    ∀ name values, Continues (callAt program known depth name values) := by
  induction depth with
  | zero =>
    intro name values
    exact continues_throw (by simp)
  | succ depth ih =>
    intro name values
    rw [callAt]
    split
    · exact continues_throw (by simp)
    · split
      · exact continues_map _ (continues_eval ih _)
      · exact continues_throw (by simp)

private theorem continues_setFields (program : Program) (depth : Nat) (known : Bindings Value) (fields : List Field) :
    Continues (setFields program depth known fields) := by
  induction fields generalizing known with
  | nil => exact continues_pure known
  | cons field rest ih =>
    rw [setFields]
    exact continues_bind (continues_call program known depth field.init []) fun value => ih _

private theorem continues_perform (program : Program) (depth : Nat) (known : Bindings Value) (action : Action) :
    Continues (perform program depth known action) := by
  cases action with
  | line text => exact continues_print _
  | value label expr =>
    rw [perform]
    refine continues_bind (continues_eval (continues_call program known depth) expr) fun value => ?_
    cases label <;> exact continues_print _

private theorem continues_performAll (program : Program) (depth : Nat) (known : Bindings Value)
    (actions : List Action) :
    Continues (performAll program depth known actions) := by
  induction actions with
  | nil => exact continues_pure ()
  | cons action rest ih =>
    rw [performAll]
    exact continues_bind (continues_perform program depth known action) fun _ => ih

private theorem continues_execute (program : Program) : Continues program.execute := by
  rw [Program.execute]
  exact continues_bind (continues_setFields program _ {} program.fields) fun known =>
    continues_performAll program _ known program.main

/-- A run ended because its input was used up. -/
def Starved (outcome : Outcome) : Prop := ∃ name, outcome.fault = some (.noInput name)

private theorem not_starved (ended : Outcome.fault outcome = none) : ¬ Starved outcome := by
  rintro ⟨name, starved⟩
  cases ended.symm.trans starved

/-- The lines that a program has not read at the end of its run. -/
def unread (program : Program) (input : List String) : List String := (left (program.execute ⟨input, ""⟩)).input

/-- The outcome of a run is what its result says. -/
theorem run_output (program : Program) (input : List String) :
    (program.run input).output = (left (program.execute ⟨input, ""⟩)).output := by
  unfold Program.run
  split <;> rename_i ran <;> rw [ran] <;> rfl

private theorem run_of_value (ran : Program.execute program ⟨input, ""⟩ = .ok value after) :
    program.run input = ⟨after.output, none⟩ := by
  rw [Program.run, ran]

private theorem run_of_fault (ran : Program.execute program ⟨input, ""⟩ = .error fault after) :
    program.run input = ⟨after.output, some fault⟩ := by
  rw [Program.run, ran]

/-- **More input never changes what was printed.** A run that is not starved prints the same and ends in the same way
with more lines behind its input, and leaves these unread. A run that is starved has read all of its input, and the run
on more lines begins with what it has printed. -/
theorem longer_input_keeps_output (program : Program) (input more : List String) :
    (¬ Starved (program.run input) →
      program.run (input ++ more) = program.run input ∧
        unread program (input ++ more) = unread program input ++ more) ∧
    (Starved (program.run input) →
      unread program input = [] ∧
        ∃ printed, (program.run (input ++ more)).output = (program.run input).output ++ printed) := by
  have carried : Carries more (program.execute ⟨input, ""⟩) (program.execute ⟨input ++ more, ""⟩) :=
    (continues_execute program).carries ⟨input, ""⟩ more
  rw [run_output program (input ++ more)]
  unfold unread
  generalize shorterIs : program.execute ⟨input, ""⟩ = shorter at carried
  generalize longerIs : program.execute ⟨input ++ more, ""⟩ = longer at carried
  cases carried with
  | value =>
    rw [run_of_value shorterIs, run_of_value longerIs]
    exact ⟨fun _ => ⟨rfl, rfl⟩, fun starved => absurd starved (not_starved rfl)⟩
  | fault fed =>
    rw [run_of_fault shorterIs, run_of_fault longerIs]
    refine ⟨fun _ => ⟨rfl, rfl⟩, ?_⟩
    rintro ⟨name, starved⟩
    exact absurd (Option.some.inj starved) (fed name)
  | starved used goesOn =>
    rw [run_of_fault shorterIs]
    exact ⟨fun fed => absurd ⟨_, rfl⟩ fed, fun _ => ⟨used, _, goesOn⟩⟩

/-- `f(t) = t + x` and `y = f(2)`: the value of `x` is asked for inside a call, before anything else is printed. -/
def askedInsideCall : List Statement :=
  [⟨.definition "f" ["t"] (.binary .add (.identifier "t") (.identifier "x")), some 1⟩,
    ⟨.assignment "y" (.call "f" [.number (.integer 2)]), some 2⟩]

/-- A line that is no number starves the run, and one more line feeds it. -/
theorem asked_inside_call_is_fed :
    ∃ final, Lowering.statements {} {} askedInsideCall = .ok final ∧
      (Starved (final.program.run ["abc"]) ∧ unread final.program ["abc"] = [] ∧
        ∃ printed, (final.program.run (["abc"] ++ ["1", "7"])).output =
          (final.program.run ["abc"]).output ++ printed) ∧
      (¬ Starved (final.program.run ["abc", "1"]) ∧
        final.program.run (["abc", "1"] ++ ["7"]) = final.program.run ["abc", "1"]) := by
  refine ⟨_, rfl, ?_, ?_⟩
  · exact ⟨⟨"x", rfl⟩, (longer_input_keeps_output _ ["abc"] ["1", "7"]).2 ⟨"x", rfl⟩⟩
  · exact ⟨not_starved rfl, ((longer_input_keeps_output _ ["abc", "1"] ["7"]).1 (not_starved rfl)).1⟩

end FormulaSheet.LongerInput
