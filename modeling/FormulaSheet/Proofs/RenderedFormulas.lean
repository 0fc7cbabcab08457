import FormulaSheet.Proofs.RowCompletion
import FormulaSheet.Formula.Printer

/-! Formulas as rows of elements, with brackets exactly where the text of a formula has parentheses. Reading
such a row gives the formula back: the strength that the printer asks of an operand is the strength that the
rule in its place can read. -/
namespace FormulaSheet.RenderedFormulas
open Markup (Element)
open FormulaReading RowCompletion Sequencing

mutual

/-- The rows that a formula can be written as. They differ in the spelling of numbers and signs, in the kind
of brackets and in the lines of the elements only. -/
inductive Rendered : Formula → List Element → Prop where
  | number (tag : element.name = "mn") (spells : Number.ofText? element.value = some value) :
      Rendered (.number value) [element]
  | identifier (tag : element.name = "mi") (same : element.value = name) : Rendered (.identifier name) [element]
  | binary (spells : sign.operator? = some (binarySign op))
      (left : Placed (Formula.binary op lhs rhs).precedence lhs leftRow)
      (right : Placed ((Formula.binary op lhs rhs).precedence + 1) rhs rightRow) :
      Rendered (.binary op lhs rhs) (leftRow ++ sign :: rightRow)
  | unary (spells : sign.operator? = some (unarySign op)) (operand : Placed 3 formula row) :
      Rendered (.unary op formula) (sign :: row)
  | power (tag : element.name = "msup") (children : element.children = [base, exponent])
      (baseTag : base.name = "mrow") (exponentTag : exponent.name = "mrow")
      (first : Placed 5 lhs base.children) (second : Placed 5 rhs exponent.children) :
      Rendered (.call "pow" [lhs, rhs]) [element]
  | call (tag : element.name = "mi") (same : element.value = name)
      (other : ¬(name = "pow" ∧ arguments.length = 2))
      (applies : sign.operator? = some .application) (groupTag : group.name = "mrow")
      (children : group.children = opening :: (rows ++ [closing]))
      (opens : opening.operator? = some (.opening bracket))
      (closes : closing.operator? = some (.closing bracket)) (listed : Listed Rendered arguments rows) :
      Rendered (.call name arguments) [element, sign, group]

/-- An operand stands in brackets exactly if it is weaker than its place asks for. -/
inductive Placed : Nat → Formula → List Element → Prop where
  | bare (strong : least ≤ formula.precedence) (inside : Rendered formula row) : Placed least formula row
  | enclosed (weak : formula.precedence < least) (opens : opening.operator? = some (.opening bracket))
      (inside : Rendered formula row) (closes : closing.operator? = some (.closing bracket)) :
      Placed least formula (opening :: (row ++ [closing]))

end

mutual

/-- No part of the formula is empty or a declaration, its names are not empty, its numbers have a text, and
its built-in functions are called with as many arguments as they take. -/
def Writable : Formula → Prop
  | .number value => ∃ text, Number.ofText? text = some value
  | .identifier name => name.isEmpty = false
  | .binary _ lhs rhs => Writable lhs ∧ Writable rhs
  | .unary _ operand => Writable operand
  | .call name arguments =>
    name.isEmpty = false ∧ (∀ expected, Builtin.arityOf? name = some expected → arguments.length = expected) ∧
      WritableAll arguments
  | .assignment _ _ | .definition _ _ _ | .empty => False

def WritableAll : List Formula → Prop
  | [] => True
  | formula :: rest => Writable formula ∧ WritableAll rest

end

/-! ## Every formula can be written -/

section Existence

/-- One spelling for each operator. -/
def spelling : Operator → String
  | .plus => "+"
  | .minus => "-"
  | .times => "*"
  | .divide => "/"
  | .equals => "="
  | .comma => ","
  | .opening .round => "("
  | .opening .square => "["
  | .opening .curly => "\x7b"
  | .closing .round => ")"
  | .closing .square => "]"
  | .closing .curly => "\x7d"
  | .application => "⁡"

def signOf (operator : Operator) : Element := ⟨"mo", spelling operator, 1, []⟩

theorem signOf_spells (operator : Operator) : (signOf operator).operator? = some operator := by
  cases operator with
  | opening bracket | closing bracket => cases bracket <;> rfl
  | _ => rfl

private theorem placed_exists (written : ∃ row, Rendered formula row) (least : Nat) :
    ∃ row, Placed least formula row := by
  obtain ⟨row, inside⟩ := written
  by_cases strong : least ≤ formula.precedence
  · exact ⟨row, .bare strong inside⟩
  · exact ⟨_, .enclosed (Nat.lt_of_not_le strong) (signOf_spells (.opening .round)) inside
      (signOf_spells (.closing .round))⟩

private theorem listed_exists (written : ∀ formula ∈ formulas, ∃ row, Rendered formula row) :
    ∃ rows, Listed Rendered formulas rows := by
  induction formulas with
  | nil => exact ⟨[], .none⟩
  | cons formula rest ih =>
    obtain ⟨row, rendered⟩ := written formula List.mem_cons_self
    obtain ⟨rows, listed⟩ := ih fun other member => written other (List.mem_cons_of_mem _ member)
    cases listed with
    | none => exact ⟨row, .items (.last rendered)⟩
    | items separated => exact ⟨_, .items (.next rendered (signOf_spells .comma) separated)⟩

private theorem call_exists (name : String) (written : ∀ formula ∈ arguments, ∃ row, Rendered formula row) :
    ∃ row, Rendered (.call name arguments) row := by
  by_cases power : name = "pow" ∧ arguments.length = 2
  · obtain ⟨rfl, two⟩ := power
    obtain ⟨lhs, rhs, rfl⟩ : ∃ lhs rhs, arguments = [lhs, rhs] := by
      match arguments, two with
      | [lhs, rhs], _ => exact ⟨lhs, rhs, rfl⟩
    obtain ⟨base, first⟩ := placed_exists (written lhs (by simp)) 5
    obtain ⟨exponent, second⟩ := placed_exists (written rhs (by simp)) 5
    exact ⟨[⟨"msup", "", 1, [⟨"mrow", "", 1, base⟩, ⟨"mrow", "", 1, exponent⟩]⟩],
      .power rfl rfl rfl rfl first second⟩
  · obtain ⟨rows, listed⟩ := listed_exists written
    exact ⟨[⟨"mi", name, 1, []⟩, signOf .application,
      ⟨"mrow", "", 1, signOf (.opening .round) :: (rows ++ [signOf (.closing .round)])⟩],
      .call rfl rfl power (signOf_spells _) rfl rfl (signOf_spells _) (signOf_spells _) listed⟩

mutual

private theorem rendered_exists : (formula : Formula) → Writable formula → ∃ row, Rendered formula row
  | .number value, ⟨text, spells⟩ => ⟨[⟨"mn", text, 1, []⟩], .number rfl spells⟩
  | .identifier name, _ => ⟨[⟨"mi", name, 1, []⟩], .identifier rfl rfl⟩
  | .binary op lhs rhs, ⟨left, right⟩ => by
    obtain ⟨leftRow, placedLeft⟩ :=
      placed_exists (rendered_exists lhs left) (Formula.binary op lhs rhs).precedence
    obtain ⟨rightRow, placedRight⟩ :=
      placed_exists (rendered_exists rhs right) ((Formula.binary op lhs rhs).precedence + 1)
    exact ⟨_, .binary (signOf_spells _) placedLeft placedRight⟩
  | .unary op operand, writable => by
    obtain ⟨row, placed⟩ := placed_exists (rendered_exists operand writable) 3
    exact ⟨_, .unary (signOf_spells _) placed⟩
  | .call name arguments, ⟨_, _, writable⟩ => call_exists name (rendered_exists_all arguments writable)

private theorem rendered_exists_all : (formulas : List Formula) → WritableAll formulas →
    ∀ formula ∈ formulas, ∃ row, Rendered formula row
  | [], _ => nofun
  | first :: rest, ⟨writable, others⟩ => by
    intro formula member
    cases member with
    | head => exact rendered_exists first writable
    | tail _ member => exact rendered_exists_all rest others formula member

end

end Existence

/-! ## Reading back -/

section Reading

theorem listWeight_append (front back : List Element) :
    Element.listWeight (front ++ back) = Element.listWeight front + Element.listWeight back := by
  induction front with
  | nil => rw [List.nil_append, Element.listWeight, Nat.zero_add]
  | cons element rest ih => rw [List.cons_append, Element.listWeight, Element.listWeight, ih, Nat.add_assoc]

theorem weight_eq (element : Element) : element.weight = 1 + Element.listWeight element.children := by
  obtain ⟨name, value, line, children⟩ := element
  rw [Element.weight]

/-- A row of elements begins with something else than a closing bracket. -/
def Starts (row : List Element) : Prop :=
  ∃ first rest, row = first :: rest ∧ ∀ bracket, first.operator? ≠ some (.closing bracket)

private theorem starts_of_tag {element : Element} (tag : element.name ≠ "mo") (rest : List Element) :
    Starts (element :: rest) := by
  refine ⟨element, rest, rfl, fun bracket closes => ?_⟩
  rw [Element.operator?, if_neg tag] at closes
  cases closes

private theorem starts_of_sign (spells : sign.operator? = some operator)
    (other : ∀ bracket, operator ≠ .closing bracket) (rest : List Element) : Starts (sign :: rest) := by
  refine ⟨sign, rest, rfl, fun bracket closes => ?_⟩
  cases spells.symm.trans closes
  exact other bracket rfl

private theorem starts_append (starts : Starts row) (rest : List Element) : Starts (row ++ rest) := by
  obtain ⟨first, others, rfl, open'⟩ := starts
  exact ⟨first, others ++ rest, rfl, open'⟩

private theorem placed_starts (inside : ∀ row, Rendered formula row → Starts row)
    (placed : Placed least formula row) : Starts row := by
  cases placed with
  | bare strong rendered => exact inside row rendered
  | enclosed weak opens rendered closes => exact starts_of_sign opens nofun _

private theorem rendered_starts : (formula : Formula) → ∀ row, Rendered formula row → Starts row
  | .number _, _, .number tag _ => starts_of_tag (by rw [tag]; decide) _
  | .identifier _, _, .identifier tag _ => starts_of_tag (by rw [tag]; decide) _
  | .binary _ lhs _, _, .binary _ left _ => starts_append (placed_starts (rendered_starts lhs) left) _
  | .unary op _, _, .unary spells _ => starts_of_sign spells (by cases op <;> exact nofun) _
  | .call _ _, _, .power tag _ _ _ _ _ => starts_of_tag (by rw [tag]; decide) _
  | .call _ _, _, .call tag _ _ _ _ _ _ _ _ => starts_of_tag (by rw [tag]; decide) _

private theorem rendered_filled (rendered : Rendered formula row) : formula.isEmpty = false := by
  cases rendered <;> rfl

private theorem placed_filled (placed : Placed least formula row) : formula.isEmpty = false := by
  cases placed with
  | bare strong inside => exact rendered_filled inside
  | enclosed weak opens inside closes => exact rendered_filled inside

/-- A row is read as a formula by each rule that reads operands of strength `least`. -/
structure ReadBack (factor : Rule Formula) (least : Nat) (formula : Formula) (row : List Element) : Prop where
  asFactor : 3 ≤ least → ReadsFactor factor row formula
  asTerm : 2 ≤ least → OpensTerm factor row formula
  asSum : OpensSum factor row formula

/-- With enough depth, every row of the formula is read back. -/
def Recovered (formula : Formula) : Prop :=
  ∀ {row depth}, Rendered formula row → Element.listWeight row < depth →
    ReadBack (Grammar.factorAt depth) formula.precedence formula row

section Strength

variable {factor : Rule Formula} {formula : Formula} {row : List Element}

private theorem readBack_of_factor (read : ReadsFactor factor row formula) : ReadBack factor least formula row where
  asFactor := fun _ => read
  asTerm := fun _ => opensTerm_of_factor read
  asSum := opensSum_of_term (opensTerm_of_factor read)

private theorem readBack_weaker (read : ReadBack factor strength formula row) (weaker : least ≤ strength) :
    ReadBack factor least formula row where
  asFactor := fun strong => read.asFactor (Nat.le_trans strong weaker)
  asTerm := fun strong => read.asTerm (Nat.le_trans strong weaker)
  asSum := read.asSum

private theorem readBack_sum (op : BinaryOp) (adds : op = .add ∨ op = .sub)
    (spells : sign.operator? = some (binarySign op)) (left : ReadBack factor 1 lhs leftRow)
    (right : ReadBack factor 2 rhs rightRow) :
    ReadBack factor 1 (.binary op lhs rhs) (leftRow ++ sign :: rightRow) where
  asFactor := nofun
  asTerm := nofun
  asSum := opensSum_signed op adds spells left.asSum (right.asTerm (Nat.le_refl _))

private theorem readBack_product (op : BinaryOp) (multiplies : op = .mul ∨ op = .div)
    (spells : sign.operator? = some (binarySign op)) (left : ReadBack factor 2 lhs leftRow)
    (right : ReadBack factor 3 rhs rightRow) :
    ReadBack factor 2 (.binary op lhs rhs) (leftRow ++ sign :: rightRow) := by
  have opens := opensTerm_signed op multiplies spells (left.asTerm (Nat.le_refl _))
    (right.asFactor (Nat.le_refl _))
  exact ⟨nofun, fun _ => opens, opensSum_of_term opens⟩

private theorem placed_readBack (recovered : Recovered formula) (placed : Placed least formula row)
    (light : Element.listWeight row < depth) : ReadBack (Grammar.factorAt depth) least formula row := by
  cases placed with
  | bare strong inside => exact readBack_weaker (recovered inside light) strong
  | enclosed weak opens inside closes =>
    cases depth with
    | zero => cases light
    | succ depth =>
      -- Brackets make a factor of any formula, which is read one level further in.
      refine readBack_of_factor (readsFactor_enclosed opens closes ?_)
      refine (recovered inside ?_).asSum
      rw [Element.listWeight, listWeight_append, weight_eq] at light
      omega

end Strength

private theorem recovered_number (value : Number) : Recovered (.number value) := by
  intro row depth rendered light
  cases depth with
  | zero => cases light
  | succ depth =>
    cases rendered with
    | number tag spells => exact readBack_of_factor (readsFactor_number tag spells)

private theorem recovered_identifier (named : name.isEmpty = false) : Recovered (.identifier name) := by
  intro row depth rendered light
  cases depth with
  | zero => cases light
  | succ depth =>
    cases rendered with
    | identifier tag same =>
      subst same
      exact readBack_of_factor (readsFactor_identifier tag named)

private theorem recovered_binary (left : Recovered lhs) (right : Recovered rhs) : Recovered (.binary op lhs rhs) := by
  intro row depth rendered light
  cases rendered with
  | binary spells placedLeft placedRight =>
    rw [listWeight_append, Element.listWeight] at light
    have readLeft := placed_readBack left placedLeft (Nat.lt_of_le_of_lt (Nat.le_add_right _ _) light)
    have readRight := placed_readBack right placedRight (Nat.lt_of_le_of_lt (by omega) light)
    cases op with
    | add => exact readBack_sum .add (.inl rfl) spells readLeft readRight
    | sub => exact readBack_sum .sub (.inr rfl) spells readLeft readRight
    | mul => exact readBack_product .mul (.inl rfl) spells readLeft readRight
    | div => exact readBack_product .div (.inr rfl) spells readLeft readRight

private theorem recovered_unary (recovered : Recovered operand) : Recovered (.unary op operand) := by
  intro row depth rendered light
  cases depth with
  | zero => cases light
  | succ depth =>
    cases rendered with
    | unary spells placed =>
      rw [Element.listWeight, weight_eq] at light
      have read : ReadBack (Grammar.factorAt depth) 3 operand _ := placed_readBack recovered placed (by omega)
      exact readBack_of_factor (readsFactor_signed op spells (read.asFactor (Nat.le_refl _)))

/-- An operand in a row of its own. -/
theorem group_readBack (recovered : Recovered formula) (tag : element.name = "mrow")
    (placed : Placed least formula element.children) (light : element.weight < depth) :
    OpensSum (Grammar.factorAt depth) [element] formula := by
  cases depth with
  | zero => cases light
  | succ depth =>
    rw [weight_eq] at light
    have read : ReadBack (Grammar.factorAt depth) least formula _ := placed_readBack recovered placed (by omega)
    obtain ⟨first, rest, shape, -⟩ := placed_starts (rendered_starts formula) placed
    have filled : element.children ≠ [] := by
      rw [shape]
      exact List.cons_ne_nil first rest
    have group := opensTerm_of_factor (readsFactor_group tag filled read.asSum)
    exact opensSum_of_term group

private theorem commas_readBack (recovered : ∀ formula ∈ formulas, Recovered formula)
    (separated : Commas Rendered formulas rows) (light : Element.listWeight rows < depth) :
    Commas (ReadsItem (Grammar.expressionWith (Grammar.factorAt depth))) formulas rows := by
  induction separated with
  | last rendered =>
    have read := recovered _ List.mem_cons_self rendered light
    exact .last fun back ends => reads_expression read.asSum ends
  | next rendered separates rest ih =>
    rw [listWeight_append, Element.listWeight] at light
    have read := recovered _ List.mem_cons_self rendered (Nat.lt_of_le_of_lt (Nat.le_add_right _ _) light)
    have others := ih (fun formula member => recovered formula (List.mem_cons_of_mem _ member)) (by omega)
    exact .next (fun back ends => reads_expression read.asSum ends) separates others

private theorem listed_readBack (recovered : ∀ formula ∈ formulas, Recovered formula)
    (listed : Listed Rendered formulas rows) (light : Element.listWeight rows < depth) :
    Listed (ReadsItem (Grammar.expressionWith (Grammar.factorAt depth))) formulas rows := by
  cases listed with
  | none => exact .none
  | items separated => exact .items (commas_readBack recovered separated light)

private theorem commas_start (separated : Commas Rendered formulas rows) : Starts rows := by
  cases separated with
  | last rendered => exact rendered_starts _ _ rendered
  | next rendered separates rest => exact starts_append (rendered_starts _ _ rendered) _

private theorem recovered_call (named : name.isEmpty = false)
    (fits : ∀ expected, Builtin.arityOf? name = some expected → arguments.length = expected)
    (recovered : ∀ formula ∈ arguments, Recovered formula) : Recovered (.call name arguments) := by
  intro row depth rendered light
  cases depth with
  | zero => cases light
  | succ depth =>
    refine readBack_of_factor ?_
    cases rendered with
    | power tag children baseTag exponentTag first second =>
      rw [Element.listWeight, Element.listWeight, weight_eq, children, Element.listWeight, Element.listWeight,
        Element.listWeight] at light
      refine readsFactor_power tag children ⟨placed_filled first, placed_filled second⟩ ?_ ?_
      · exact group_readBack (recovered _ (by simp)) baseTag first (by omega)
      · exact group_readBack (recovered _ (by simp)) exponentTag second (by omega)
    | call tag same other applies groupTag children opens closes listed =>
      subst same
      simp only [Element.listWeight] at light
      rw [weight_eq, weight_eq, weight_eq, children, Element.listWeight, listWeight_append] at light
      have inside : Listed (ReadsItem (Grammar.expressionWith (Grammar.factorAt depth))) arguments _ :=
        listed_readBack recovered listed (by omega)
      refine readsFactor_call tag named applies fits fun back => reads_arguments groupTag children opens ?_
      refine reads_bracketed opens closes inside fun several => ?_
      cases listed with
      | none => exact absurd rfl several
      | items separated =>
        obtain ⟨first, rest, rfl, begins⟩ := commas_start separated
        exact begins _

mutual

private theorem recovered_all : (formula : Formula) → Writable formula → Recovered formula
  | .number value, _ => recovered_number value
  | .identifier _, named => recovered_identifier named
  | .binary _ lhs rhs, ⟨left, right⟩ => recovered_binary (recovered_all lhs left) (recovered_all rhs right)
  | .unary _ operand, writable => recovered_unary (recovered_all operand writable)
  | .call _ arguments, ⟨named, fits, writable⟩ => recovered_call named fits (recovered_each arguments writable)

private theorem recovered_each : (formulas : List Formula) → WritableAll formulas →
    ∀ formula ∈ formulas, Recovered formula
  | [], _ => nofun
  | first :: rest, ⟨writable, others⟩ => by
    intro formula member
    cases member with
    | head => exact recovered_all first writable
    | tail _ member => exact recovered_each rest others formula member

end

end Reading

/-- Every writable formula has a row, and reading any row of it gives the formula back and leaves nothing. -/
theorem rendered_formula_reads_back (formula : Formula) (writable : Writable formula) :
    (∃ row, Rendered formula row) ∧
      ∀ row taken owner, Rendered formula row →
        Rule.whole Grammar.expression ⟨taken, row, owner⟩ = .ok formula ⟨taken + row.length, [], owner⟩ := by
  refine ⟨rendered_exists formula writable, fun row taken owner rendered => ?_⟩
  have recovered := recovered_all formula writable rendered (Nat.lt_succ_self _)
  have read := reads_expression recovered.asSum (.inl rfl) taken owner
  rw [List.append_nil] at read
  have expression : Grammar.expression ⟨taken, row, owner⟩ = .ok formula ⟨taken + row.length, [], owner⟩ := read
  rw [Rule.whole, bind_of_ok expression]
  rfl

/-- A sign in front of a power, times a difference in brackets: `-(a + b)^2 * (f(x, 2) - b)`. -/
def powerTimesDifference : Formula :=
  .binary .mul
    (.unary .minus (.call "pow" [.binary .add (.identifier "a") (.identifier "b"), .number (.integer 2)]))
    (.binary .sub (.call "f" [.identifier "x", .number (.integer 2)]) (.identifier "b"))

def powerTimesDifferenceRow : List Element := [
  signOf .minus,
  ⟨"msup", "", 1, [
    ⟨"mrow", "", 1, [signOf (.opening .square), ⟨"mi", "a", 1, []⟩, signOf .plus, ⟨"mi", "b", 1, []⟩,
      signOf (.closing .square)]⟩,
    ⟨"mrow", "", 1, [⟨"mn", "2", 1, []⟩]⟩]⟩,
  signOf .times,
  signOf (.opening .round), ⟨"mi", "f", 1, []⟩, signOf .application,
  ⟨"mrow", "", 1, [signOf (.opening .round), ⟨"mi", "x", 1, []⟩, signOf .comma, ⟨"mn", "2", 1, []⟩,
    signOf (.closing .round)]⟩,
  signOf .minus, ⟨"mi", "b", 1, []⟩, signOf (.closing .round)]

theorem power_times_difference_reads_back :
    Writable powerTimesDifference ∧ Rendered powerTimesDifference powerTimesDifferenceRow ∧
      Rule.whole Grammar.expression ⟨0, powerTimesDifferenceRow, none⟩ =
        .ok powerTimesDifference ⟨10, [], none⟩ := by
  have two : Rendered (.number (.integer 2)) [⟨"mn", "2", 1, []⟩] := .number rfl rfl
  have name (text : String) : Rendered (.identifier text) [⟨"mi", text, 1, []⟩] := .identifier rfl rfl
  have literal : Writable (.number (.integer 2)) := ⟨"2", rfl⟩
  have writable : Writable powerTimesDifference :=
    ⟨⟨rfl, fun _ known => Option.some.inj known, ⟨rfl, rfl⟩, literal, trivial⟩,
      ⟨rfl, fun _ known => (by cases known), rfl, literal, trivial⟩, rfl⟩
  have sum : Rendered (.binary .add (.identifier "a") (.identifier "b")) _ :=
    .binary (signOf_spells _) (.bare (by decide) (name "a")) (.bare (by decide) (name "b"))
  have power : Rendered (.call "pow" [.binary .add (.identifier "a") (.identifier "b"), .number (.integer 2)])
      [⟨"msup", "", 1, [⟨"mrow", "", 1, _⟩, ⟨"mrow", "", 1, _⟩]⟩] :=
    .power rfl rfl rfl rfl
      (.enclosed (by decide) (signOf_spells (.opening .square)) sum (signOf_spells (.closing .square)))
      (.bare (by decide) two)
  have call : Rendered (.call "f" [.identifier "x", .number (.integer 2)])
      [⟨"mi", "f", 1, []⟩, signOf .application, ⟨"mrow", "", 1, _⟩] :=
    .call rfl rfl (by decide) (signOf_spells _) rfl rfl (signOf_spells (.opening .round)) (signOf_spells _)
      (.items (.next (name "x") (signOf_spells _) (.last two)))
  have difference :
      Rendered (.binary .sub (.call "f" [.identifier "x", .number (.integer 2)]) (.identifier "b")) _ :=
    .binary (signOf_spells _) (.bare (by decide) call) (.bare (by decide) (name "b"))
  have rendered : Rendered powerTimesDifference powerTimesDifferenceRow :=
    .binary (signOf_spells _)
      (.bare (by decide) (.unary (signOf_spells _) (.bare (by decide) power)))
      (.enclosed (by decide) (signOf_spells (.opening .round)) difference (signOf_spells (.closing .round)))
  exact ⟨writable, rendered, (rendered_formula_reads_back _ writable).2 _ 0 none rendered⟩

end FormulaSheet.RenderedFormulas
