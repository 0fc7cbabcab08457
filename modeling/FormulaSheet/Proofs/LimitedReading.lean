import Mathlib.Logic.Basic
import Mathlib.Tactic.SplitIfs
import FormulaSheet.Proofs.NestingDepth
import FormulaSheet.Proofs.StatementFaults

/-! The grammar with a limit that shows. Every loop here may go round as often as the limit says and every factor may
be nested as deep; a walk that would need more is given up and is `none`. Being given up is no fault: nothing catches
it, so that a list whose attempt in brackets had reached the limit would be `none` too. The rules of the grammar are
shown to be these walks at any limit above the number of elements in and below the row. So no reading of a tree goes
on for ever, and what is tried and abandoned ends as well. -/
namespace FormulaSheet.LimitedReading
open Markup (Element)
open Rule FormulaReading FaultLines NestingDepth Sequencing

variable {α β σ : Type}

/-- A way to read a value from the front of a row, which is `none` if it reaches its limit. Otherwise it gives a value
or fails, and in both cases the row left over tells how far it got. -/
abbrev Walk (α : Type) := ExceptT Fault (StateT Row Option) α

/-- The end of a rule as the end of a walk. -/
def ending : EStateM.Result Fault Row α → Except Fault α × Row
  | .ok value left => (.ok value, left)
  | .error fault left => (.error fault, left)

/-- A rule as a walk that reaches no limit. -/
def ofRule (rule : Rule α) : Walk α := fun row => some (ending (rule row))

/-- The walk at its limit. -/
def spent : Walk α := fun _ => none

/-- A walk in another row, which leaves this one as it is. -/
def elsewhere (other : Row) (walk : Walk α) : Walk α := fun row => (walk other).map fun ended => (ended.1, row)

/-- Reads a value that fills the row. -/
def whole (walk : Walk α) : Walk α := do
  let value ← walk
  ofRule finish
  return value

/-- Repeats a round, which says whether to go on (`yield`) or to stop (`done`), `limit` times at most. -/
def loop (round : σ → Walk (ForInStep σ)) : Nat → σ → Walk σ
  | 0, _ => spent
  | limit + 1, state => do
    match ← round state with
    | .yield next => loop round limit next
    | .done last => return last

/-! ## Lists -/

/-- Reads an item, and the comma or the closing bracket behind it. -/
def bracketedRound (bracket : Bracket) (item : Walk α) (items : List α) : Walk (ForInStep (List α)) := do
  let value ← item
  if (← ofRule operator?) = some .comma then
    let _ ← ofRule (take "mo")
    return .yield (items ++ [value])
  else
    ofRule (close bracket)
    return .done (items ++ [value])

def bracketed (limit : Nat) (bracket : Bracket) (item : Walk α) : Walk (List α) := do
  let _ ← ofRule (take "mo")
  if (← ofRule operator?) = some (.closing bracket) then
    let _ ← ofRule (take "mo")
    return []
  else loop (bracketedRound bracket item) limit []

/-- Reads an item, and the comma or the end of the row behind it. -/
def bareRound (item : Walk α) (items : List α) : Walk (ForInStep (List α)) := do
  if (← ofRule get).isExhausted then return .done items
  else
    let value ← item
    if (← ofRule operator?) = some .comma then
      let _ ← ofRule (take "mo")
    else ofRule finish
    return .yield (items ++ [value])

def bare (limit : Nat) (item : Walk α) : Walk (List α) := loop (bareRound item) limit []

/-- Reads a list that fills the row. An attempt to read it in brackets comes first, from the same row. -/
def list (limit : Nat) (item : Walk α) : Walk (List α) := fun row =>
  match row.operator? with
  | some (.opening bracket) => do
    match ← bracketed limit bracket item row with
    | (.ok items, left) => if left.isExhausted then return (.ok items, left) else bare limit item row
    | (.error _, _) => bare limit item row
  | _ => bare limit item row

/-- Passes over a comma, or reads an element as an item of its own. -/
def fencedRound (item : Walk α) (items : List α) : Walk (ForInStep (List α)) := do
  if (← ofRule get).isExhausted then return .done items
  else if (← ofRule operator?) = some .comma then
    let _ ← ofRule (take "mo")
    return .yield items
  else
    let window ← ofRule takeWindow
    return .yield (items ++ [← elsewhere window (whole item)])

def fenced (limit : Nat) (item : Walk α) : Walk (List α) := loop (fencedRound item) limit []

/-- Goes inside single groups, one after the other, to the row at their heart. -/
def unnest : Nat → Row → Walk Core
  | 0, _ => spent
  | limit + 1, row =>
    if row.remaining = 1 ∧ row.current?.map Element.name = some "mrow" then
      match row.children with
      | .ok inside => unnest limit inside
      | .error fault => throw fault
    else if row.remaining = 1 ∧ row.current?.map Element.name = some "mfenced" then
      match row.children with
      | .ok inside => if inside.size = 1 then unnest limit inside else return ⟨inside, true⟩
      | .error fault => throw fault
    else return ⟨row, false⟩

def listElement (limit : Nat) (item : Walk α) : Walk (List α) := do
  let window ← ofRule takeWindow
  let core ← unnest limit window
  elsewhere core.row (if core.isFenced then fenced limit item else list limit item)

/-! ## Formulas -/

/-- Adds a term to `sum` or subtracts one from it. -/
def sumRound (term : Walk Formula) (sum : Formula) : Walk (ForInStep Formula) := do
  match ← ofRule operator? with
  | some .plus =>
    let _ ← ofRule (take "mo")
    return .yield (.binary .add sum (← term))
  | some .minus =>
    let _ ← ofRule (take "mo")
    return .yield (.binary .sub sum (← term))
  | _ => return .done sum

/-- Reads one more factor, behind a sign or beside those in `run`. -/
def termRound (factor : Walk Formula) (run : List Formula) : Walk (ForInStep (List Formula)) := do
  match (← ofRule get).rest with
  | [] => return .done run
  | element :: _ =>
    match element.operator? with
    | some .times =>
      let _ ← ofRule (take "mo")
      return .yield [.binary .mul (Formula.product run) (← factor)]
    | some .divide =>
      let _ ← ofRule (take "mo")
      return .yield [.binary .div (Formula.product run) (← factor)]
    | some operator =>
      if operator.endsTerm then return .done run
      else return .yield (run ++ [← factor])
    | none => return .yield (run ++ [← factor])

def termWith (limit : Nat) (factor : Walk Formula) : Walk Formula := do
  let first ← factor
  return Formula.product (← loop (termRound factor) limit [first])

def expressionWith (limit : Nat) (factor : Walk Formula) : Walk Formula := do
  let first ← termWith limit factor
  loop (sumRound (termWith limit factor)) limit first

def argumentsWith (limit : Nat) (expression : Walk Formula) : Walk (List Formula) := do
  match ← ofRule operator? with
  | some (.opening bracket) => bracketed limit bracket expression
  | _ => listElement limit expression

def operandWith (expression : Walk Formula) (construct : String) : Walk Formula := do
  let line := (← ofRule get).line
  let window ← ofRule takeWindow
  let value ← elsewhere window (whole expression)
  if value.isEmpty then ofRule (complain (.emptyOperand construct) line)
  else return value

def pairWith (expression : Walk Formula) (element : Element) : Walk (Formula × Formula) := do
  let construct := s!"<{element.name}>"
  ofRule (modify Row.advance)
  if element.children.length = 2 then
    elsewhere (Row.ofChildren element) do
      let first ← operandWith expression construct
      let second ← operandWith expression construct
      return (first, second)
  else throw (.arity construct 2 element.children.length element.line)

def signedWith (factor expression : Walk Formula) (element : Element) : Walk Formula :=
  match element.operator? with
  | some .plus => do
    let _ ← ofRule (take "mo")
    return .unary .plus (← factor)
  | some .minus => do
    let _ ← ofRule (take "mo")
    return .unary .minus (← factor)
  | some (.opening bracket) => do
    let _ ← ofRule (take "mo")
    let value ← expression
    ofRule (close bracket)
    return value
  | some .application => ofRule (complain .strayApplication element.line)
  | some _ => ofRule (complain (.misplacedOperator element.value) element.line)
  | none => ofRule (complain (.unknownOperator element.value) element.line)

def namedWith (limit : Nat) (expression : Walk Formula) (element : Element) : Walk Formula := do
  let name ← ofRule Grammar.identifier
  if (← ofRule operator?) = some .application then
    let _ ← ofRule (take "mo")
    let arguments ← argumentsWith limit expression
    match Grammar.invocation name arguments element.line with
    | .ok call => return call
    | .error fault => throw fault
  else return .identifier name

def groupWith (expression : Walk Formula) (element : Element) : Walk Formula := do
  ofRule (modify Row.advance)
  if element.children.isEmpty then return .empty
  else elsewhere (Row.ofChildren element) (whole expression)

def squareRootWith (expression : Walk Formula) (element : Element) : Walk Formula := do
  ofRule (modify Row.advance)
  if element.children.isEmpty then throw (.arity "<msqrt>" 1 0 element.line)
  else
    let radicand ← elsewhere (Row.ofChildren element) (whole expression)
    return .call "sqrt" [radicand]

/-- Reads a factor, given the walk for the factors inside it. -/
def factorWith (limit : Nat) (factor : Walk Formula) : Walk Formula := do
  let expression := expressionWith limit factor
  let row ← ofRule get
  match row.rest with
  | [] => ofRule (complain .missingValue row.owner)
  | element :: _ =>
    match element.name with
    | "mn" => ofRule Grammar.number
    | "mi" | "mtext" => namedWith limit expression element
    | "mrow" | "mfenced" => groupWith expression element
    | "mo" => signedWith factor expression element
    | "mfrac" => do
      let (numerator, denominator) ← pairWith expression element
      return .binary .div numerator denominator
    | "msup" => do
      let (base, exponent) ← pairWith expression element
      return .call "pow" [base, exponent]
    | "mroot" => do
      let (radicand, index) ← pairWith expression element
      return .call "root" [radicand, index]
    | "msqrt" => squareRootWith expression element
    | tag =>
      if tag ∈ Grammar.unsupportedTags then throw (.unsupported (.tag tag) element.line)
      else ofRule (complain (.unknownTag tag) element.line)

def factor : Nat → Walk Formula
  | 0 => spent
  | limit + 1 => factorWith limit (factor limit)

def term (limit : Nat) : Walk Formula := termWith limit (factor limit)

def expression (limit : Nat) : Walk Formula := expressionWith limit (factor limit)

/-! ## Steps -/

/-- On a row, a walk ends as a rule does. -/
def EndsAs (row : Row) (walk : Walk α) (rule : Rule α) : Prop := walk row = ofRule rule row

/-- On rows with fewer elements than a bound, a walk ends as a rule does that reads something of them if it succeeds. -/
structure EndsBelow (bound : Nat) (walk : Walk α) (rule : Rule α) : Prop where
  ends : ∀ {row : Row}, row.weight < bound → EndsAs row walk rule
  reads : ∀ {row value left}, row.weight < bound → rule row = .ok value left → Passed 1 row left

private theorem reads_of_steady {rule : Rule α} (steady : Steady bound rule) (light : row.weight < bound)
    (ran : rule row = .ok value left) : Passed 1 row left := by
  have behaves := steady (covered_of_light light)
  rw [Behaves, ran] at behaves
  exact behaves

private theorem below_ofRule {rule : Rule α} (steady : Steady bound rule) : EndsBelow bound (ofRule rule) rule :=
  ⟨fun _ => rfl, reads_of_steady steady⟩

theorem bind_ended {walk : Walk α} (ran : walk row = some (.ok value, left)) (next : α → Walk β) :
    (walk >>= next) row = next value left := by
  change (walk row >>= fun ended => ExceptT.bindCont next ended.1 ended.2) = _
  rw [ran]
  rfl

theorem bind_failed {walk : Walk α} (ran : walk row = some (.error fault, left)) (next : α → Walk β) :
    (walk >>= next) row = some (.error fault, left) := by
  change (walk row >>= fun ended => ExceptT.bindCont next ended.1 ended.2) = _
  rw [ran]
  rfl

private theorem bind_same {walk other : Walk α} (same : walk row = other row) (next : α → Walk β) :
    (walk >>= next) row = (other >>= next) row := by
  change (walk row >>= fun ended => ExceptT.bindCont next ended.1 ended.2) = (other row >>= _)
  rw [same]

private theorem get_next (next : Row → Walk β) (row : Row) : (ofRule get >>= next) row = next row row := rfl

private theorem operator_next (next : Option Operator → Walk β) (row : Row) :
    (ofRule Rule.operator? >>= next) row = next row.operator? row :=
  rfl

private theorem ends_congr {walk other : Walk α} {rule same : Rule α} (walks : walk row = other row)
    (rules : rule row = same row) (ends : EndsAs row other same) : EndsAs row walk rule := by
  unfold EndsAs ofRule at ends ⊢
  rw [walks, rules]
  exact ends

theorem ends_bind {walk : Walk α} {rule : Rule α} {next : α → Walk β} {next' : α → Rule β}
    (first : EndsAs row walk rule)
    (rest : ∀ value left, rule row = .ok value left → EndsAs left (next value) (next' value)) :
    EndsAs row (walk >>= next) (rule >>= next') := by
  unfold EndsAs ofRule at first rest ⊢
  cases ran : rule row with
  | ok value left =>
    rw [ran] at first
    rw [bind_of_ok ran]
    exact (bind_ended first next).trans (rest value left ran)
  | error fault left =>
    rw [ran] at first
    rw [bind_of_error ran]
    exact bind_failed first next

/-- What is left of a light row is light and shorter. -/
theorem ends_behind {walk : Walk α} {rule : Rule α} {next : α → Walk β} {next' : α → Rule β}
    (below : EndsBelow bound walk rule) (light : row.weight < bound)
    (rest : ∀ value left, left.rest.length < row.rest.length → left.weight < bound →
      EndsAs left (next value) (next' value)) :
    EndsAs row (walk >>= next) (rule >>= next') := by
  refine ends_bind (below.ends light) fun value left read => ?_
  have passed := below.reads light read
  exact rest value left (length_behind passed) (Nat.lt_trans (lighter_of_passed passed) light)

private theorem ends_take {next : Element → Walk β} {next' : Element → Rule β} (light : row.weight < bound)
    (rest : ∀ element left, left.rest.length < row.rest.length → left.weight < bound →
      EndsAs left (next element) (next' element)) :
    EndsAs row (ofRule (take tag) >>= next) (take tag >>= next') :=
  ends_behind (below_ofRule fun _ _ => behaves_take) light rest

private theorem ends_get {next : Row → Walk β} {next' : Row → Rule β} (rest : EndsAs row (next row) (next' row)) :
    EndsAs row (ofRule get >>= next) (get >>= next') :=
  rest

private theorem ends_operator {next : Option Operator → Walk β} {next' : Option Operator → Rule β}
    (rest : EndsAs row (next row.operator?) (next' row.operator?)) :
    EndsAs row (ofRule Rule.operator? >>= next) (Rule.operator? >>= next') :=
  rest

private theorem ends_ite {condition : Prop} [Decidable condition] {walk other : Walk α} {rule rule' : Rule α}
    (yes : condition → EndsAs row walk rule) (no : ¬condition → EndsAs row other rule') :
    EndsAs row (if condition then walk else other) (if condition then rule else rule') := by
  by_cases holds : condition
  · rw [if_pos holds, if_pos holds]
    exact yes holds
  · rw [if_neg holds, if_neg holds]
    exact no holds

private theorem ends_elsewhere {walk : Walk α} {rule : Rule α} {inside : Row} (ends : EndsAs inside walk rule)
    (row : Row) :
    EndsAs row (elsewhere inside walk) (within inside rule) := by
  rw [EndsAs, elsewhere, ends, ofRule, ofRule, within]
  cases rule inside <;> rfl

private theorem ends_filling {walk : Walk α} {rule : Rule α} {inside : Row} (ends : EndsAs inside walk rule)
    (row : Row) :
    EndsAs row (elsewhere inside (whole walk)) (within inside (Rule.whole rule)) := by
  rw [whole, Rule.whole]
  refine ends_elsewhere ?_ row
  exact ends_bind ends fun _ _ _ => ends_bind rfl fun _ _ _ => rfl

private theorem loop_done {round : σ → Walk (ForInStep σ)} (ran : round state row = some (.ok (.done last), left)) :
    loop round (limit + 1) state row = some (.ok last, left) :=
  bind_ended ran _

/-- A light row is short, and so a loop that takes an element each round ends. -/
theorem rounds_of_light (light : Row.weight row < bound) (enough : bound ≤ limit) : row.rest.length < limit :=
  Nat.lt_of_le_of_lt (length_le_listWeight row.rest) (Nat.lt_of_lt_of_le light enough)

/-- Where an element is left, so is a round. -/
theorem exists_less {row : Row} (shape : row.rest = element :: rest) (enough : row.rest.length ≤ most) :
    ∃ less, most = less + 1 := by
  rw [shape, List.length_cons] at enough
  exact ⟨most - 1, by omega⟩

/-! ## The rules for lists -/

/-- The loops gather their items from the front, the rules from the back. -/
theorem append_nothing (rule : Rule (List α)) : (rule >>= fun values => pure ([] ++ values)) = rule := by
  simp

section Lists

variable {item : Walk α} {rule : Rule α} {row : Row}

private theorem ends_bracketedLoop (below : EndsBelow bound item rule) (light : row.weight < bound)
    (rounds : row.rest.length < limit) (enough : row.rest.length < most) (bracket : Bracket) (items : List α) :
    EndsAs row (loop (bracketedRound bracket item) limit items)
      (bracketedItems bracket rule most >>= fun values => pure (items ++ values)) := by
  -- The rule has a limit of its own, set when its loop began; the two run down side by side, never to zero.
  induction limit generalizing most items row with
  | zero => omega
  | succ limit ih =>
    obtain ⟨most, rfl⟩ : ∃ less, most = less + 1 := ⟨most - 1, by omega⟩
    rw [loop, bracketedRound, bracketedItems]
    simp only [bind_assoc]
    refine ends_behind below light fun value middle shorter lighter => ends_operator ?_
    by_cases separates : middle.operator? = some .comma
    · rw [if_pos separates, if_pos separates]
      simp only [bind_assoc, pure_bind]
      refine ends_take lighter fun comma left shortest lightest => ?_
      simpa using ih lightest (by omega) (by omega) (items ++ [value])
    · rw [if_neg separates, if_neg separates]
      simp only [bind_assoc, pure_bind]
      exact ends_bind rfl fun _ _ _ => rfl

theorem ends_bracketed (below : EndsBelow bound item rule) (enough : bound ≤ limit) (light : row.weight < bound)
    (bracket : Bracket) : EndsAs row (bracketed limit bracket item) (Rule.bracketed bracket rule) := by
  rw [bracketed, Rule.bracketed]
  refine ends_take light fun opening middle _ lighter => ends_operator (ends_ite (fun _ => ?_) fun _ => ?_)
  · exact ends_bind rfl fun _ _ _ => rfl
  · have rounds := rounds_of_light lighter enough
    have items := ends_bracketedLoop below lighter rounds (Nat.lt_succ_self _) bracket []
    rw [append_nothing] at items
    exact items

private theorem bareRound_exhausted (ended : row.rest = []) (items : List α) :
    bareRound item items row = some (.ok (.done items), row) := by
  rw [bareRound, get_next, if_pos (isExhausted_iff.mpr ended)]
  rfl

private theorem ends_bareLoop (below : EndsBelow bound item rule) (light : row.weight < bound)
    (rounds : row.rest.length < limit) (enough : row.rest.length ≤ most) (items : List α) :
    EndsAs row (loop (bareRound item) limit items) (bareItems rule most >>= fun values => pure (items ++ values)) := by
  induction limit generalizing most items row with
  | zero => omega
  | succ limit ih =>
    cases shape : row.rest with
    | nil =>
      rw [EndsAs, ofRule, bind_of_ok (bareItems_exhausted shape), List.append_nil]
      exact loop_done (bareRound_exhausted shape items)
    | cons element rest =>
      obtain ⟨most, rfl⟩ := exists_less shape enough
      have more : ¬row.isExhausted = true := by simp [isExhausted_iff, shape]
      rw [bareItems, loop, bareRound]
      simp only [bind_assoc]
      refine ends_get ?_
      rw [if_neg more, if_neg more]
      simp only [bind_assoc]
      refine ends_behind below light fun value middle shorter lighter => ends_operator ?_
      by_cases separates : middle.operator? = some .comma
      · rw [if_pos separates, if_pos separates]
        simp only [bind_assoc, pure_bind]
        refine ends_take lighter fun comma left shortest lightest => ?_
        simpa using ih lightest (by omega) (by omega) (items ++ [value])
      · rw [if_neg separates, if_neg separates]
        simp only [bind_assoc, pure_bind]
        -- Nothing is left behind the item, and the next round finds the row exhausted.
        refine ends_bind rfl fun _ left finished => ?_
        obtain ⟨-, rfl⟩ := finish_ok finished
        simpa using ih lighter (by omega) (by omega) (items ++ [value])

/-- The attempt in brackets ends too, whether it succeeds, fails or stops early. -/
theorem ends_list (below : EndsBelow bound item rule) (enough : bound ≤ limit) (light : row.weight < bound) :
    EndsAs row (list limit item) (Rule.list rule) := by
  have asBare : bare limit item row = some (ending (Rule.bare rule row)) := by
    have items := ends_bareLoop below light (rounds_of_light light enough) (Nat.le_refl _) []
    rw [append_nothing] at items
    exact items
  have asBracketed (bracket : Bracket) :
      bracketed limit bracket item row = some (ending (Rule.bracketed bracket rule row)) :=
    ends_bracketed below enough light bracket
  rw [EndsAs, ofRule, list, Rule.list]
  cases row.operator? with
  | none => exact asBare
  | some operator =>
    cases operator with
    | opening bracket =>
      dsimp only
      rw [asBracketed, asBare]
      cases Rule.bracketed bracket rule row with
      | error fault left => rfl
      | ok items left =>
        change (if left.isExhausted = true then _ else _) = some (ending (if left.isExhausted = true then _ else _))
        split <;> rfl
    | plus | minus | times | divide | equals | comma | application | closing bracket => exact asBare

private theorem fencedRound_exhausted (ended : row.rest = []) (items : List α) :
    fencedRound item items row = some (.ok (.done items), row) := by
  rw [fencedRound, get_next, if_pos (isExhausted_iff.mpr ended)]
  rfl

private theorem ends_fencedLoop (below : EndsBelow bound item rule) (light : row.weight < bound)
    (rounds : row.rest.length < limit) (enough : row.rest.length ≤ most) (items : List α) :
    EndsAs row (loop (fencedRound item) limit items)
      (fencedItems rule most >>= fun values => pure (items ++ values)) := by
  induction limit generalizing most items row with
  | zero => omega
  | succ limit ih =>
    cases shape : row.rest with
    | nil =>
      rw [EndsAs, ofRule, bind_of_ok (fencedItems_exhausted shape), List.append_nil]
      exact loop_done (fencedRound_exhausted shape items)
    | cons element rest =>
      obtain ⟨most, rfl⟩ := exists_less shape enough
      have more : ¬row.isExhausted = true := by simp [isExhausted_iff, shape]
      rw [fencedItems, loop, fencedRound]
      simp only [bind_assoc]
      refine ends_get ?_
      rw [if_neg more, if_neg more]
      simp only [bind_assoc]
      refine ends_operator ?_
      by_cases separates : row.operator? = some .comma
      · rw [if_pos separates, if_pos separates]
        simp only [bind_assoc, pure_bind]
        exact ends_take light fun comma left shorter lighter => ih lighter (by omega) (by omega) items
      · rw [if_neg separates, if_neg separates]
        simp only [bind_assoc, pure_bind]
        refine ends_bind rfl fun window middle taken => ?_
        have behind := light_behind (behaves_takeWindow (covered_of_light light)) light taken
        obtain ⟨element, shape, rfl⟩ := takeWindow_ok taken
        refine ends_bind (ends_filling (below.ends (light_element light shape)) middle) fun value left read => ?_
        obtain ⟨-, rfl⟩ := within_ok read
        rw [shape, List.length_cons] at rounds enough
        simpa using ih behind (by omega) (by omega) (items ++ [value])

private theorem unnest_of_unnested (limit : Nat) (row : Row)
    (reached : StatementFaults.unnested (.error (.internal .childrenOfNothing)) limit row = .ok core) :
    unnest limit row = pure core := by
  induction limit generalizing row with
  | zero => cases reached
  | succ limit ih =>
    rw [StatementFaults.unnested, StatementFaults.childrenOr_internal] at reached
    rw [unnest]
    cases below : row.children with
    | error fault =>
      simp only [below, Except.bind] at reached
      split_ifs at reached ⊢
      cases reached
      rfl
    | ok inside =>
      simp only [below, Except.bind] at reached
      dsimp only
      split_ifs at reached ⊢
      · exact ih inside reached
      · exact ih inside reached
      · cases reached
        rfl
      · cases reached
        rfl

/-- Going inside single groups ends, since each is smaller than the one around it. -/
theorem unnest_element (element : Element) (enough : element.weight < limit) :
    unnest limit (Row.ofElement element) = pure (element.core element.line) := by
  obtain ⟨limit, rfl⟩ : ∃ less, limit = less + 1 := ⟨limit - 1, by omega⟩
  exact unnest_of_unnested _ _ (StatementFaults.unnested_eq _ element element.line (Nat.le_of_lt_succ enough))

theorem ends_listElement (below : EndsBelow bound item rule) (enough : bound ≤ limit) (light : row.weight < bound) :
    EndsAs row (listElement limit item) (Rule.listElement rule) := by
  rw [EndsAs, listElement, ofRule, Rule.listElement]
  cases shape : row.rest with
  | nil =>
    refine bind_failed ?_ _
    rw [ofRule, takeWindow, shape]
    rfl
  | cons element rest =>
    have taken : ofRule takeWindow row = some (.ok (Row.ofElement element), row.advance) := by
      rw [ofRule, takeWindow, shape]
      rfl
    have nested : element.weight < limit := by
      have lighter := light_element light shape
      simp only [Row.weight, Row.ofElement, Row.ofList, Element.listWeight] at lighter
      omega
    have inside : (element.core element.line).row.weight < bound :=
      (covered_core element element.line (covered_element (covered_of_light light) shape).2.1).light
    rw [bind_ended taken, unnest_element element nested, pure_bind]
    refine ends_elsewhere ?_ row.advance
    split
    · have items := ends_fencedLoop below inside (rounds_of_light inside enough) (Nat.le_refl _) []
      rw [append_nothing] at items
      exact items
    · exact ends_list below enough inside

end Lists

/-! ## The rules for formulas -/

section Formulas

variable {walk : Walk Formula} {rule : Rule Formula} {row : Row}

theorem sumRound_next (op : BinaryOp) (adds : op = .add ∨ op = .sub) (found : row.operator? = some (binarySign op)) :
    sumRound walk sum row = (ofRule (take "mo") >>= fun _ => walk >>= fun operand =>
      pure (.yield (.binary op sum operand))) row := by
  rw [sumRound, operator_next, found]
  rcases adds with rfl | rfl <;> rfl

theorem sumRound_ends (noPlus : row.operator? ≠ some .plus) (noMinus : row.operator? ≠ some .minus) :
    sumRound walk sum row = some (.ok (.done sum), row) := by
  rw [sumRound, operator_next]
  cases found : row.operator? with
  | none => rfl
  | some operator =>
    cases operator with
    | plus => exact absurd found noPlus
    | minus => exact absurd found noMinus
    | times | divide | equals | comma | application | opening bracket | closing bracket => rfl

/-- The loop ends before a limit that is not below the number of elements left, because each round takes some. -/
theorem ends_sumLoop (terms : EndsBelow bound walk rule) (light : row.weight < bound)
    (rounds : row.rest.length < limit) (enough : row.rest.length ≤ most) (sum : Formula) :
    EndsAs row (loop (sumRound walk) limit sum) (Grammar.sumTail rule sum most) := by
  induction limit generalizing most sum row with
  | zero => omega
  | succ limit ih =>
    by_cases signed : ∃ op, (op = .add ∨ op = .sub) ∧ row.operator? = some (binarySign op)
    · obtain ⟨op, adds, found⟩ := signed
      obtain ⟨element, rest, shape, -⟩ := operator?_some found
      obtain ⟨most, rfl⟩ := exists_less shape enough
      rw [loop]
      refine ends_congr (bind_same (sumRound_next op adds found) _) (sumTail_next op adds found) ?_
      simp only [bind_assoc, pure_bind]
      refine ends_take light fun sign behind shorter lighter => ?_
      exact ends_behind terms lighter fun operand left shortest lightest => ih lightest (by omega) (by omega) _
    · have noPlus : row.operator? ≠ some .plus := fun found => signed ⟨.add, .inl rfl, found⟩
      have noMinus : row.operator? ≠ some .minus := fun found => signed ⟨.sub, .inr rfl, found⟩
      rw [EndsAs, ofRule, sumTail_ends noPlus noMinus]
      exact loop_done (sumRound_ends noPlus noMinus)

/-- What can come next in a term: nothing of it, a sign and a factor, or a factor. -/
theorem term_continues (row : Row) :
    (row.rest = [] ∨ ∃ operator, row.operator? = some operator ∧ operator.endsTerm = true) ∨
    (∃ op, (op = .mul ∨ op = .div) ∧ row.operator? = some (binarySign op)) ∨
    ∃ element rest, row.rest = element :: rest ∧ ∀ operator, row.operator? = some operator →
      operator ≠ .times ∧ operator ≠ .divide ∧ operator.endsTerm = false := by
  cases shape : row.rest with
  | nil => exact .inl (.inl rfl)
  | cons element rest =>
    cases found : row.operator? with
    | none => exact .inr (.inr ⟨element, rest, rfl, by simp⟩)
    | some operator =>
      cases operator with
      | plus | minus | equals | comma | closing bracket => exact .inl (.inr ⟨_, rfl, rfl⟩)
      | times => exact .inr (.inl ⟨.mul, .inl rfl, rfl⟩)
      | divide => exact .inr (.inl ⟨.div, .inr rfl, rfl⟩)
      | opening bracket | application => exact .inr (.inr ⟨element, rest, rfl, by simp [Operator.endsTerm]⟩)

theorem termRound_ends
    (ended : row.rest = [] ∨ ∃ operator, row.operator? = some operator ∧ operator.endsTerm = true) :
    termRound walk run row = some (.ok (.done run), row) := by
  rcases ended with ended | ⟨operator, found, ends⟩
  · rw [termRound, get_next, ended]
    rfl
  · obtain ⟨element, rest, shape, spells⟩ := operator?_some found
    rw [termRound, get_next, shape]
    dsimp only
    rw [spells]
    cases operator with
    | plus | minus | equals | comma | closing bracket => rfl
    | times | divide | opening bracket | application => cases ends

theorem termRound_signed (op : BinaryOp) (multiplies : op = .mul ∨ op = .div)
    (found : row.operator? = some (binarySign op)) :
    termRound walk run row = (ofRule (take "mo") >>= fun _ => walk >>= fun operand =>
      pure (.yield [.binary op (Formula.product run) operand])) row := by
  obtain ⟨element, rest, shape, spells⟩ := operator?_some found
  rw [termRound, get_next, shape]
  dsimp only
  rw [spells]
  rcases multiplies with rfl | rfl <;> rfl

theorem termRound_beside (shape : row.rest = element :: rest)
    (unsigned : ∀ operator, row.operator? = some operator →
      operator ≠ .times ∧ operator ≠ .divide ∧ operator.endsTerm = false) :
    termRound walk run row = (walk >>= fun operand => pure (.yield (run ++ [operand]))) row := by
  rw [operator?_cons shape] at unsigned
  rw [termRound, get_next, shape]
  dsimp only
  cases found : element.operator? with
  | none => rfl
  | some operator =>
    obtain ⟨noTimes, noDivide, more⟩ := unsigned operator found
    cases operator with
    | opening bracket | application => rfl
    | times => exact absurd rfl noTimes
    | divide => exact absurd rfl noDivide
    | plus | minus | equals | comma | closing bracket => cases more

private theorem ends_termLoop (factors : EndsBelow bound walk rule) (light : row.weight < bound)
    (rounds : row.rest.length < limit) (enough : row.rest.length ≤ most) (run : List Formula) :
    EndsAs row (loop (termRound walk) limit run >>= fun run => pure (Formula.product run))
      (Grammar.termTail rule run most) := by
  induction limit generalizing most run row with
  | zero => omega
  | succ limit ih =>
    rcases term_continues row with ended | ⟨op, multiplies, found⟩ | ⟨element, rest, shape, unsigned⟩
    · have tail : Grammar.termTail rule run most row = .ok (Formula.product run) row := by
        rcases ended with ended | ⟨operator, found, ends⟩
        · exact termTail_exhausted ended
        · exact termTail_ends found ends
      rw [EndsAs, ofRule, tail]
      exact bind_ended (loop_done (termRound_ends ended)) _
    · obtain ⟨element, rest, shape, -⟩ := operator?_some found
      obtain ⟨most, rfl⟩ := exists_less shape enough
      rw [loop]
      refine ends_congr (bind_same (bind_same (termRound_signed op multiplies found) _) _)
        (termTail_signed op multiplies found) ?_
      simp only [bind_assoc, pure_bind]
      refine ends_take light fun sign behind shorter lighter => ?_
      exact ends_behind factors lighter fun operand left shortest lightest => ih lightest (by omega) (by omega) _
    · obtain ⟨most, rfl⟩ := exists_less shape enough
      rw [loop]
      refine ends_congr (bind_same (bind_same (termRound_beside shape unsigned) _) _)
        (termTail_beside shape unsigned) ?_
      simp only [bind_assoc, pure_bind]
      exact ends_behind factors light fun operand left shorter lighter => ih lighter (by omega) (by omega) _

private theorem below_termWith (factors : EndsBelow bound walk rule) (steady : Steady bound rule)
    (enough : bound ≤ limit) :
    EndsBelow bound (termWith limit walk) (Grammar.termWith rule) where
  ends light := ends_behind factors light fun first _ _ lighter =>
    ends_termLoop factors lighter (rounds_of_light lighter enough) (Nat.le_refl _) [first]
  reads := reads_of_steady (steady_termWith steady)

private theorem below_expressionWith (factors : EndsBelow bound walk rule) (steady : Steady bound rule)
    (enough : bound ≤ limit) : EndsBelow bound (expressionWith limit walk) (Grammar.expressionWith rule) where
  ends light :=
    have terms := below_termWith factors steady enough
    ends_behind terms light fun first _ _ lighter =>
      ends_sumLoop terms lighter (rounds_of_light lighter enough) (Nat.le_refl _) first
  reads := reads_of_steady (steady_expressionWith steady)

end Formulas

section Factors

variable {walk expression : Walk Formula} {rule : Rule Formula} {row : Row} {element : Element}

private theorem ends_argumentsWith (below : EndsBelow bound walk rule) (enough : bound ≤ limit)
    (light : row.weight < bound) :
    EndsAs row (argumentsWith limit walk) (Grammar.argumentsWith rule) := by
  have held := ends_listElement below enough light
  rw [argumentsWith, Grammar.argumentsWith]
  refine ends_operator ?_
  cases found : row.operator? with
  | none => exact held
  | some operator =>
    cases operator with
    | opening bracket => exact ends_bracketed below enough light bracket
    | plus | minus | times | divide | equals | comma | application | closing bracket => exact held

private theorem ends_operandWith (below : EndsBelow bound walk rule) (light : row.weight < bound) (construct : String) :
    EndsAs row (operandWith walk construct) (Grammar.operandWith rule construct) := by
  rw [operandWith, Grammar.operandWith]
  refine ends_get (ends_bind rfl fun window middle taken => ?_)
  obtain ⟨element, shape, rfl⟩ := takeWindow_ok taken
  have read := ends_filling (below.ends (light_element light shape)) middle
  exact ends_bind read fun _ _ _ => ends_ite (fun _ => rfl) fun _ => rfl

private theorem ends_pairWith (below : EndsBelow bound walk rule) (light : (Row.ofChildren element).weight < bound)
    (row : Row) : EndsAs row (pairWith walk element) (Grammar.pairWith rule element) := by
  rw [pairWith, Grammar.pairWith]
  refine ends_bind rfl fun _ left _ => ends_ite (fun _ => ends_elsewhere ?_ left) fun _ => rfl
  refine ends_bind (ends_operandWith below light _) fun first middle read => ?_
  -- An operand takes one element, whatever its expression reads inside it.
  have lighter : middle.weight < bound := by
    obtain ⟨operand, shape, -⟩ := operandWith_ok read
    rw [Row.weight, shape, Element.listWeight] at light
    exact Nat.lt_of_le_of_lt (Nat.le_add_left _ _) light
  exact ends_bind (ends_operandWith below lighter _) fun _ _ _ => rfl

private theorem ends_groupWith (below : EndsBelow bound expression (Grammar.expressionWith rule))
    (light : (Row.ofChildren element).weight < bound) (row : Row) :
    EndsAs row (groupWith expression element) (Grammar.groupWith rule element) := by
  rw [groupWith, Grammar.groupWith]
  refine ends_bind rfl fun _ left _ => ends_ite (fun _ => rfl) fun _ => ?_
  exact ends_filling (below.ends light) left

private theorem ends_squareRootWith (below : EndsBelow bound expression (Grammar.expressionWith rule))
    (light : (Row.ofChildren element).weight < bound) (row : Row) :
    EndsAs row (squareRootWith expression element) (Grammar.squareRootWith rule element) := by
  rw [squareRootWith, Grammar.squareRootWith]
  refine ends_bind rfl fun _ left _ => ends_ite (fun _ => rfl) fun _ => ?_
  exact ends_bind (ends_filling (below.ends light) left) fun _ _ _ => rfl

private theorem ends_namedWith (below : EndsBelow bound expression (Grammar.expressionWith rule))
    (enough : bound ≤ limit)
    (light : row.weight < bound + 1) (element : Element) :
    EndsAs row (namedWith limit expression element) (Grammar.namedWith rule element) := by
  rw [namedWith, Grammar.namedWith]
  refine ends_bind rfl fun name middle read => ends_operator (ends_ite (fun _ => ?_) fun _ => rfl)
  have lighter := lighter_behind (steady_identifier _ (covered_of_light light)) read
  have behind : middle.weight < bound := by omega
  refine ends_take behind fun _ later _ inside => ?_
  refine ends_bind (ends_argumentsWith below enough inside) fun values left _ => ?_
  cases Grammar.invocation name values element.line <;> rfl

private theorem ends_signedWith (factors : EndsBelow bound walk rule)
    (below : EndsBelow bound expression (Grammar.expressionWith rule)) (light : row.weight < bound + 1)
    (element : Element) : EndsAs row (signedWith walk expression element) (Grammar.signedWith rule element) := by
  have behind {walk : Walk Formula} {rule : Rule Formula} (below : EndsBelow bound walk rule)
      {next : Formula → Walk Formula} {next' : Formula → Rule Formula}
      (rest : ∀ value left, EndsAs left (next value) (next' value)) :
      EndsAs row (ofRule (take "mo") >>= fun _ => walk >>= next) (take "mo" >>= fun _ => rule >>= next') := by
    refine ends_bind rfl fun _ left taken => ?_
    have lighter := lighter_behind (behaves_take (covered_of_light light)) taken
    exact ends_bind (below.ends (by omega)) fun value left _ => rest value left
  rw [signedWith, Grammar.signedWith]
  cases element.operator? with
  | none => rfl
  | some operator =>
    cases operator with
    | plus | minus => exact behind factors fun _ _ => rfl
    | opening bracket => exact behind below fun _ _ => ends_bind rfl fun _ _ _ => rfl
    | times | divide | equals | comma | application | closing bracket => rfl

/-- The tags that have a meaning in a formula. -/
def formulaTags : List String :=
  ["mn", "mi", "mtext", "mrow", "mfenced", "mo", "mfrac", "msup", "mroot", "msqrt"]

/-- The complaint about an element with another tag. -/
def meaningless (element : Element) : Rule Formula :=
  if element.name ∈ Grammar.unsupportedTags then throw (.unsupported (.tag element.name) element.line)
  else complain (.unknownTag element.name) element.line

private theorem walk_meaningless (shape : row.rest = element :: rest) (other : element.name ∉ formulaTags) :
    factorWith limit walk row = ofRule (meaningless element) row := by
  rw [factorWith, get_next, shape]
  refine congrFun ?_ row
  dsimp only
  split
  case h_11 =>
    rw [meaningless]
    split <;> rfl
  all_goals
    rename_i tag
    simp [tag, formulaTags] at other

private theorem rule_meaningless (shape : row.rest = element :: rest) (other : element.name ∉ formulaTags) :
    Grammar.factorWith rule row = meaningless element row := by
  rw [Grammar.factorWith, get_bind, shape]
  refine congrFun ?_ row
  dsimp only
  split
  case h_11 => rfl
  all_goals
    rename_i tag
    simp [tag, formulaTags] at other

/-- Every step inwards or past an element leaves fewer elements, so one more level of nesting ends if the levels inside
it do. -/
theorem below_factorWith (factors : EndsBelow bound walk rule) (steady : Steady bound rule) (enough : bound ≤ limit) :
    EndsBelow (bound + 1) (factorWith limit walk) (Grammar.factorWith rule) where
  ends {row} light := by
    cases shape : row.rest with
    | nil =>
      rw [factorWith, Grammar.factorWith]
      refine ends_get ?_
      rw [shape]
      rfl
    | cons element rest =>
      -- Other tags first: with ten tags left, both sides can be compared tag by tag.
      by_cases other : element.name ∉ formulaTags
      · exact ends_congr (walk_meaningless shape other) (rule_meaningless shape other) rfl
      have expressions := below_expressionWith factors steady enough
      have inside : (Row.ofChildren element).weight < bound :=
        (covered_element (covered_of_light light) shape).2.2.light
      have pairs {form : Formula × Formula → Walk Formula} {form' : Formula × Formula → Rule Formula}
          (same : ∀ pair left, EndsAs left (form pair) (form' pair)) :
          EndsAs row (pairWith (expressionWith limit walk) element >>= form)
            (Grammar.pairWith (Grammar.expressionWith rule) element >>= form') :=
        ends_bind (ends_pairWith expressions inside row) fun pair left _ => same pair left
      rw [factorWith, Grammar.factorWith]
      refine ends_get ?_
      rw [shape]
      simp only [formulaTags, List.mem_cons, List.not_mem_nil, or_false, not_not] at other
      rcases other with tag | tag | tag | tag | tag | tag | tag | tag | tag | tag <;> simp only [tag]
      · rfl
      · exact ends_namedWith expressions enough light element
      · exact ends_namedWith expressions enough light element
      · exact ends_groupWith expressions inside row
      · exact ends_groupWith expressions inside row
      · exact ends_signedWith factors expressions light element
      · exact pairs fun _ _ => rfl
      · exact pairs fun _ _ => rfl
      · exact pairs fun _ _ => rfl
      · exact ends_squareRootWith expressions inside row
  reads := reads_of_steady (steady_factorWith steady)

private theorem below_factor (enough : depth ≤ limit) : EndsBelow depth (factor limit) (Grammar.factorAt depth) := by
  induction depth generalizing limit with
  | zero => exact ⟨fun light => absurd light (Nat.not_lt_zero _), fun light => absurd light (Nat.not_lt_zero _)⟩
  | succ depth ih =>
    obtain ⟨limit, rfl⟩ : ∃ less, limit = less + 1 := ⟨limit - 1, by omega⟩
    have inside := Nat.le_of_succ_le_succ enough
    exact below_factorWith (ih inside) (steady_factorAt depth) inside

end Factors

/-! ## All rows -/

theorem term_eq (row : Row) : Grammar.term row = Grammar.termWith (Grammar.factorAt (row.weight + 1)) row := by
  rw [Grammar.term]

theorem expression_eq (row : Row) :
    Grammar.expression row = Grammar.expressionWith (Grammar.factorAt (row.weight + 1)) row := by
  rw [Grammar.expression]

section Rows

variable {row : Row} (enough : row.weight < limit)
include enough

theorem factor_ends : EndsAs row (factor limit) Grammar.factor :=
  ends_congr rfl (factor_eq (Nat.lt_succ_self _)) ((below_factor enough).ends (Nat.lt_succ_self _))

theorem term_ends : EndsAs row (term limit) Grammar.term := by
  have terms := below_termWith (below_factor enough) (steady_factorAt _) enough
  exact ends_congr rfl (term_eq row) (terms.ends (Nat.lt_succ_self _))

theorem expression_ends : EndsAs row (expression limit) Grammar.expression := by
  have expressions := below_expressionWith (below_factor enough) (steady_factorAt _) enough
  exact ends_congr rfl (expression_eq row) (expressions.ends (Nat.lt_succ_self _))

end Rows

end FormulaSheet.LimitedReading
