import FormulaSheet.Proofs.FaultLines

/-! The bound on nesting does not matter. A rule for a factor is closed over itself at a depth that exceeds the
number of elements in and below the row; at any other such depth it does the same, in success and in failure. So
factors of several rows can be compared at one common depth. -/
namespace FormulaSheet.NestingDepth
open Markup (Element)
open Rule FormulaReading FaultLines Sequencing

variable {α β : Type}

/-- Two rules do the same on a row. -/
def SameOn (row : Row) (rule other : Rule α) : Prop := rule row = other row

/-- Two rules do the same on rows with fewer elements than a bound, and read something of them. -/
structure Exchangeable (bound : Nat) (rule other : Rule α) : Prop where
  same : ∀ {row : Row}, row.weight < bound → SameOn row rule other
  steady : Steady bound rule

/-! ## Rows -/

theorem covered_of_light (light : row.weight < bound) : Covered (fun _ => True) bound row :=
  ⟨trivial, fun _ _ => trivial, light⟩

theorem lighter_of_passed (passed : Passed 1 row left) : left.weight < row.weight :=
  (covered_behind (covered_of_light (Nat.lt_succ_self row.weight)) passed).light

/-- What a rule leaves of a row is no heavier than the row. -/
theorem light_behind {rule : Rule α} (behaves : Behaves (fun _ => True) count rule row) (light : row.weight < bound)
    (ran : rule row = .ok value left) : left.weight < bound := by
  rw [Behaves, ran] at behaves
  exact (covered_later (covered_of_light light) behaves).light

theorem lighter_behind {rule : Rule α} (behaves : Behaves (fun _ => True) 1 rule row)
    (ran : rule row = .ok value left) : left.weight < row.weight := by
  rw [Behaves, ran] at behaves
  exact lighter_of_passed behaves

theorem light_element (light : Row.weight row < bound) (shape : row.rest = element :: rest) :
    (Row.ofElement element).weight < bound :=
  (covered_element (covered_of_light light) shape).2.1.light

/-! ## Steps -/

private theorem same_bind {rule other : Rule α} {next next' : α → Rule β} (first : SameOn row rule other)
    (rest : ∀ value left, rule row = .ok value left → SameOn left (next value) (next' value)) :
    SameOn row (rule >>= next) (other >>= next') := by
  unfold SameOn at first ⊢
  cases ran : rule row with
  | ok value left =>
    rw [bind_of_ok ran, bind_of_ok (first.symm.trans ran)]
    exact rest value left ran
  | error fault left => rw [bind_of_error ran, bind_of_error (first.symm.trans ran)]

private theorem same_behind {rule other : Rule α} (next : α → Rule β) (first : SameOn row rule other) :
    SameOn row (rule >>= next) (other >>= next) :=
  same_bind first fun _ _ _ => rfl

/-- Looking at the row changes nothing. -/
theorem same_get {next next' : Row → Rule β} (rest : SameOn row (next row) (next' row)) :
    SameOn row (get >>= next) (get >>= next') :=
  rest

private theorem same_operator {next next' : Option Operator → Rule β}
    (rest : SameOn row (next row.operator?) (next' row.operator?)) :
    SameOn row (Rule.operator? >>= next) (Rule.operator? >>= next') :=
  rest

/-- A row is as light behind an element as in front of it. -/
theorem same_take {next next' : Element → Rule β} (light : row.weight < bound)
    (rest : ∀ element left, left.weight < bound → SameOn left (next element) (next' element)) :
    SameOn row (take tag >>= next) (take tag >>= next') :=
  same_bind rfl fun element left taken =>
    rest element left (light_behind (behaves_take (covered_of_light light)) light taken)

private theorem same_item {rule other : Rule α} {next next' : α → Rule β} (exchangeable : Exchangeable bound rule other)
    (light : row.weight < bound)
    (rest : ∀ value left, left.weight < bound → SameOn left (next value) (next' value)) :
    SameOn row (rule >>= next) (other >>= next') :=
  same_bind (exchangeable.same light) fun value left read =>
    rest value left (light_behind (exchangeable.steady (covered_of_light light)) light read)

private theorem same_whole {rule other : Rule α} (same : SameOn row rule other) : SameOn row (whole rule)
    (whole other) :=
  same_behind _ same

private theorem same_within {rule other : Rule α} {inner : Row} (same : SameOn inner rule other) (row : Row) :
    SameOn row (within inner rule) (within inner other) := by
  unfold SameOn at same
  rw [SameOn, within, within, same]

/-! ## Lists -/

section Lists

variable {item other : Rule α} {row : Row}

private theorem same_bracketedItems (exchangeable : Exchangeable bound item other) (light : row.weight < bound)
    (limit : Nat) :
    SameOn row (bracketedItems bracket item limit) (bracketedItems bracket other limit) := by
  induction limit generalizing row with
  | zero => rfl
  | succ limit ih =>
    refine same_item exchangeable light fun first middle behind => same_operator ?_
    split
    · exact same_take behind fun comma later inside => same_behind _ (ih inside)
    · rfl

private theorem same_bracketed (exchangeable : Exchangeable bound item other) (light : row.weight < bound)
    (bracket : Bracket) :
    SameOn row (bracketed bracket item) (bracketed bracket other) := by
  refine same_take light fun opening middle behind => same_operator ?_
  split
  · rfl
  · exact same_get (same_bracketedItems exchangeable behind _)

private theorem same_bareItems (exchangeable : Exchangeable bound item other) (light : row.weight < bound)
    (limit : Nat) :
    SameOn row (bareItems item limit) (bareItems other limit) := by
  induction limit generalizing row with
  | zero => rfl
  | succ limit ih =>
    refine same_get ?_
    split
    · rfl
    · refine same_item exchangeable light fun first middle behind => same_operator ?_
      split
      · exact same_take behind fun comma later inside => same_behind _ (ih inside)
      · refine same_bind rfl fun _ later finished => ?_
        obtain ⟨-, rfl⟩ := finish_ok finished
        exact same_behind _ (ih behind)

private theorem same_list (exchangeable : Exchangeable bound item other) (light : row.weight < bound) :
    SameOn row (Rule.list item) (Rule.list other) := by
  have asBracketed (bracket : Bracket) : bracketed bracket item row = bracketed bracket other row :=
    same_bracketed exchangeable light bracket
  have asBare : bare item row = bare other row := same_get (same_bareItems exchangeable light _)
  simp only [SameOn, Rule.list, asBracketed, asBare]

private theorem same_fencedItems (exchangeable : Exchangeable bound item other) (light : row.weight < bound)
    (limit : Nat) :
    SameOn row (fencedItems item limit) (fencedItems other limit) := by
  induction limit generalizing row with
  | zero => rfl
  | succ limit ih =>
    refine same_get ?_
    split
    · rfl
    · refine same_operator ?_
      split
      · exact same_take light fun comma later inside => ih inside
      · refine same_bind rfl fun window later taken => ?_
        have behind := light_behind (behaves_takeWindow (covered_of_light light)) light taken
        obtain ⟨element, shape, rfl⟩ := takeWindow_ok taken
        have inside := same_whole (exchangeable.same (light_element light shape))
        refine same_bind (same_within inside later) fun first last read => ?_
        obtain ⟨-, rfl⟩ := within_ok read
        exact same_behind _ (ih behind)

private theorem same_listElement (exchangeable : Exchangeable bound item other) (light : row.weight < bound) :
    SameOn row (listElement item) (listElement other) := by
  unfold SameOn listElement
  split
  · rfl
  · rename_i element rest shape
    have inside : (element.core element.line).row.weight < bound :=
      (covered_core element element.line (covered_element (covered_of_light light) shape).2.1).light
    refine same_within ?_ row.advance
    split
    · exact same_get (same_fencedItems exchangeable inside _)
    · exact same_list exchangeable inside

end Lists

/-! ## Formulas -/

section Formulas

variable {factor other : Rule Formula} {row : Row}

private theorem same_termTail (exchangeable : Exchangeable bound factor other) (light : row.weight < bound)
    (run : List Formula) (limit : Nat) :
    SameOn row (Grammar.termTail factor run limit) (Grammar.termTail other run limit) := by
  induction limit generalizing run row with
  | zero => rfl
  | succ limit ih =>
    have next {row : Row} (light : row.weight < bound) (gather : Formula → List Formula) :
        SameOn row (factor >>= fun operand => Grammar.termTail factor (gather operand) limit)
          (other >>= fun operand => Grammar.termTail other (gather operand) limit) :=
      same_item exchangeable light fun operand left behind => ih behind _
    rw [Grammar.termTail, Grammar.termTail]
    refine same_get ?_
    split
    · rfl
    · split
      · exact same_take light fun _ left behind => next behind _
      · exact same_take light fun _ left behind => next behind _
      · split
        · rfl
        · exact next light _
      · exact next light _

private theorem exchangeable_termWith (exchangeable : Exchangeable bound factor other) :
    Exchangeable bound (Grammar.termWith factor) (Grammar.termWith other) where
  same light := same_item exchangeable light fun first _ behind =>
    same_get (same_termTail exchangeable behind [first] _)
  steady := steady_termWith exchangeable.steady

private theorem same_sumTail {term other : Rule Formula} (exchangeable : Exchangeable bound term other)
    (light : row.weight < bound) (sum : Formula) (limit : Nat) :
    SameOn row (Grammar.sumTail term sum limit) (Grammar.sumTail other sum limit) := by
  induction limit generalizing sum row with
  | zero => rfl
  | succ limit ih =>
    have next (gather : Formula → Formula) :
        SameOn row (take "mo" >>= fun _ => term >>= fun operand => Grammar.sumTail term (gather operand) limit)
          (take "mo" >>= fun _ => other >>= fun operand => Grammar.sumTail other (gather operand) limit) :=
      same_take light fun _ left behind => same_item exchangeable behind fun operand _ later => ih later _
    rw [Grammar.sumTail, Grammar.sumTail]
    refine same_operator ?_
    split
    · exact next _
    · exact next _
    · rfl

private theorem exchangeable_expressionWith (exchangeable : Exchangeable bound factor other) :
    Exchangeable bound (Grammar.expressionWith factor) (Grammar.expressionWith other) where
  same light := same_item (exchangeable_termWith exchangeable) light fun first _ behind =>
    same_get (same_sumTail (exchangeable_termWith exchangeable) behind first _)
  steady := steady_expressionWith exchangeable.steady

/-! ## Factors -/

private theorem same_argumentsWith {expression other : Rule Formula}
    (exchangeable : Exchangeable bound expression other)
    (light : row.weight < bound) : SameOn row (Grammar.argumentsWith expression) (Grammar.argumentsWith other) := by
  refine same_operator ?_
  split
  · exact same_bracketed exchangeable light _
  · exact same_listElement exchangeable light

private theorem same_operandWith {expression other : Rule Formula} (exchangeable : Exchangeable bound expression other)
    (light : row.weight < bound) (construct : String) :
    SameOn row (Grammar.operandWith expression construct) (Grammar.operandWith other construct) := by
  refine same_get (same_bind rfl fun window later taken => ?_)
  obtain ⟨element, shape, rfl⟩ := takeWindow_ok taken
  have inside := same_whole (exchangeable.same (light_element light shape))
  exact same_behind _ (same_within inside later)

private theorem same_pairWith {expression other : Rule Formula} (exchangeable : Exchangeable bound expression other)
    (inside : (Row.ofChildren element).weight < bound) (row : Row) :
    SameOn row (Grammar.pairWith expression element) (Grammar.pairWith other element) := by
  refine same_bind rfl fun _ left _ => ?_
  split
  · refine same_within (same_bind (same_operandWith exchangeable inside _) fun first middle read => ?_) left
    have behind := light_behind (behaves_operandWith exchangeable.steady (covered_of_light inside) _) inside read
    exact same_behind _ (same_operandWith exchangeable behind _)
  · rfl

private theorem same_namedWith (exchangeable : Exchangeable bound factor other) (light : row.weight < bound + 1)
    (element : Element) : SameOn row (Grammar.namedWith factor element) (Grammar.namedWith other element) := by
  refine same_bind rfl fun name middle read => same_operator ?_
  have behind := lighter_behind (steady_identifier _ (covered_of_light light)) read
  split
  · have light : middle.weight < bound := by omega
    refine same_take light fun _ later inside => ?_
    exact same_behind _ (same_argumentsWith (exchangeable_expressionWith exchangeable) inside)
  · rfl

private theorem same_signedWith (exchangeable : Exchangeable bound factor other) (light : row.weight < bound + 1)
    (element : Element) : SameOn row (Grammar.signedWith factor element) (Grammar.signedWith other element) := by
  have inside {rule other : Rule Formula} (exchangeable : Exchangeable bound rule other)
      (next : Formula → Rule Formula) :
      SameOn row (take "mo" >>= fun _ => rule >>= next) (take "mo" >>= fun _ => other >>= next) := by
    refine same_bind rfl fun _ left taken => ?_
    have lighter := lighter_behind (behaves_take (covered_of_light light)) taken
    exact same_behind _ (exchangeable.same (by omega))
  unfold Grammar.signedWith
  split
  · exact inside exchangeable _
  · exact inside exchangeable _
  · exact inside (exchangeable_expressionWith exchangeable) _
  all_goals rfl

private theorem same_groupWith (exchangeable : Exchangeable bound factor other)
    (inside : (Row.ofChildren element).weight < bound) (row : Row) :
    SameOn row (Grammar.groupWith factor element) (Grammar.groupWith other element) := by
  refine same_bind rfl fun _ left _ => ?_
  split
  · rfl
  · exact same_within (same_whole ((exchangeable_expressionWith exchangeable).same inside)) left

private theorem same_squareRootWith (exchangeable : Exchangeable bound factor other)
    (inside : (Row.ofChildren element).weight < bound) (row : Row) :
    SameOn row (Grammar.squareRootWith factor element) (Grammar.squareRootWith other element) := by
  refine same_bind rfl fun _ left _ => ?_
  split
  · rfl
  · have radicand := same_whole ((exchangeable_expressionWith exchangeable).same inside)
    exact same_behind _ (same_within radicand left)

/-- Inside a factor there are fewer elements than in and below its row. -/
theorem exchangeable_factorWith (exchangeable : Exchangeable bound factor other) :
    Exchangeable (bound + 1) (Grammar.factorWith factor) (Grammar.factorWith other) where
  steady := steady_factorWith exchangeable.steady
  same := by
    intro row light
    refine same_get ?_
    split
    · rfl
    · rename_i element rest shape
      have inside : (Row.ofChildren element).weight < bound :=
        (covered_element (covered_of_light light) shape).2.2.light
      have pair := same_pairWith (exchangeable_expressionWith exchangeable) inside row
      split
      · rfl
      · exact same_namedWith exchangeable light element
      · exact same_namedWith exchangeable light element
      · exact same_groupWith exchangeable inside row
      · exact same_groupWith exchangeable inside row
      · exact same_signedWith exchangeable light element
      · exact same_behind _ pair
      · exact same_behind _ pair
      · exact same_behind _ pair
      · exact same_squareRootWith exchangeable inside row
      · rfl

private theorem exchangeable_factorAt (depth more : Nat) :
    Exchangeable depth (Grammar.factorAt depth) (Grammar.factorAt (depth + more)) := by
  induction depth with
  | zero => exact ⟨fun light => absurd light (Nat.not_lt_zero _), steady_factorAt 0⟩
  | succ depth ih =>
    rw [Nat.add_right_comm]
    exact exchangeable_factorWith ih

/-- The rule for a factor does the same at every depth that is enough. -/
theorem factor_eq (enough : row.weight < depth) : Grammar.factor row = Grammar.factorAt depth row := by
  obtain ⟨more, rfl⟩ := Nat.exists_eq_add_of_le enough
  exact (exchangeable_factorAt (row.weight + 1) more).same (Nat.lt_succ_self _)

end Formulas

end FormulaSheet.NestingDepth
