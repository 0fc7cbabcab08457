import FormulaSheet.Proofs.FormulaReading

/-! Reading neither loses nor repeats nor reorders what a statement spells. The numbers and names of the
elements, in the order of the markup, are the numbers and names of the formula, in the order in which it is
written. Three two-dimensional forms spell a function without a name in the markup: a power, a root and a
square root. -/
namespace FormulaSheet.ReadingConservation
open Markup (Element)
open FormulaReading

/-- A number or a name in a row or in a formula. -/
inductive Item where
  /-- The number that a text spells, if it spells one. -/
  | literal (value : Option Number)
  | name (text : String)

mutual

/-- The numbers and names of a formula from left to right. -/
def items : Formula → List Item
  | .number value => [.literal (some value)]
  | .identifier name => [.name name]
  | .binary _ lhs rhs => items lhs ++ items rhs
  | .unary _ operand => items operand
  | .call name arguments => .name name :: itemsAll arguments
  | .assignment name value => .name name :: items value
  | .definition name parameters body => .name name :: parameters.map .name ++ items body
  | .empty => []

def itemsAll : List Formula → List Item
  | [] => []
  | formula :: rest => items formula ++ itemsAll rest

end

mutual

/-- The numbers and names of an element in document order. Nothing below a number, a name or an operator
counts; `implied` gives the names that a tag stands for by itself. -/
def spelled (implied : String → List String) : Element → List Item
  | ⟨tag, value, _, children⟩ =>
    if tag = "mn" then [.literal (Number.ofText? value)]
    else if tag = "mi" ∨ tag = "mtext" then [.name value]
    else if tag = "mo" then []
    else (implied tag).map .name ++ spelledAll implied children

def spelledAll (implied : String → List String) : List Element → List Item
  | [] => []
  | element :: rest => spelled implied element ++ spelledAll implied rest

end

/-- The names of the functions that two-dimensional forms call. -/
def formNames : String → List String
  | "msup" => ["pow"]
  | "mroot" => ["root"]
  | "msqrt" => ["sqrt"]
  | _ => []

section Spelling

variable {implied : String → List String} {element : Element}

private theorem spelled_number (tag : element.name = "mn") :
    spelled implied element = [.literal (Number.ofText? element.value)] := by
  obtain ⟨name, value, line, children⟩ := element
  subst tag
  rw [spelled, if_pos rfl]

private theorem spelled_name (tag : element.name = "mi" ∨ element.name = "mtext") :
    spelled implied element = [.name element.value] := by
  obtain ⟨name, value, line, children⟩ := element
  rw [spelled, if_neg (by rintro rfl; simp at tag), if_pos tag]

private theorem spelled_sign (found : element.operator? = some operator) : spelled implied element = [] := by
  have tag := name_of_operator? found
  obtain ⟨name, value, line, children⟩ := element
  subst tag
  rw [spelled, if_neg (by decide), if_neg (by decide), if_pos rfl]

private theorem spelled_inner (tag : element.name = outer) (inner : outer ∉ ["mn", "mi", "mtext", "mo"]) :
    spelled implied element = (implied outer).map .name ++ spelledAll implied element.children := by
  obtain ⟨name, value, line, children⟩ := element
  subst tag
  simp only [List.mem_cons, List.not_mem_nil, or_false, not_or] at inner
  obtain ⟨noNumber, noName, noText, noSign⟩ := inner
  rw [spelled, if_neg noNumber, if_neg (not_or.mpr ⟨noName, noText⟩), if_neg noSign]

private theorem spelled_group (tag : element.name = "mrow" ∨ element.name = "mfenced") :
    spelled formNames element = spelledAll formNames element.children := by
  rcases tag with tag | tag <;> exact spelled_inner tag (by decide)

private theorem spelledAll_single : spelledAll implied [element] = spelled implied element := List.append_nil _

/-- Stripping groups keeps what they spell. -/
theorem spelled_core (element : Element) (owner : Option Nat) :
    spelledAll formNames (element.core owner).row.rest = spelled formNames element := by
  fun_induction Element.core owner element with
  | case1 owner value line child ih =>
    rw [ih, ← spelledAll_single]
    symm
    exact spelled_group (.inl rfl)
  | case2 owner value line children several =>
    symm
    exact spelled_group (.inl rfl)
  | case3 owner value line child ih =>
    rw [ih, ← spelledAll_single]
    symm
    exact spelled_group (.inr rfl)
  | case4 owner value line children several =>
    symm
    exact spelled_group (.inr rfl)
  | case5 owner element => exact spelledAll_single

private theorem spelled_statementRow (element : Element) :
    spelledAll formNames element.statementRow.rest = spelledAll formNames element.children := by
  fun_induction Element.statementRow element with
  | case1 name text outer value line children ih =>
    rw [ih, spelledAll_single]
    symm
    exact spelled_group (.inl rfl)
  | case2 name value line children several => rfl

end Spelling

/-! ## Each rule conserves -/

/-- The elements in front spell the parts of the value, and then what the elements behind it spell. -/
def Conserves {α : Type} (parts : α → List Item) : Reading α :=
  fun before value after => spelledAll formNames before = parts value ++ spelledAll formNames after

section Lists

variable {α : Type} {item : Reading α} {parts : α → List Item}

private theorem conserves_bracketedItems (conserved : Entails item (Conserves parts))
    (read : BracketedItems item bracket before values after) :
    Conserves (List.flatMap parts) before values after := by
  induction read with
  | last read closes =>
    have first := conserved read
    rw [Conserves, spelledAll, spelled_sign closes] at first
    simpa [Conserves] using first
  | next read separates rest ih =>
    have first := conserved read
    rw [Conserves, spelledAll, spelled_sign separates] at first
    simpa [Conserves, ih.symm] using first

private theorem conserves_bracketed (conserved : Entails item (Conserves parts)) :
    Entails (Bracketed item bracket) (Conserves (List.flatMap parts)) := by
  intro before values after read
  cases read with
  | none opens closes => simp [Conserves, spelledAll, spelled_sign opens, spelled_sign closes]
  | items opens read =>
    rw [Conserves, spelledAll, spelled_sign opens]
    exact conserves_bracketedItems conserved read

private theorem conserves_bareItems (conserved : Entails item (Conserves parts)) (read : BareItems item before values) :
    spelledAll formNames before = values.flatMap parts := by
  induction read with
  | none => rfl
  | last read => simpa [Conserves, spelledAll] using conserved read
  | next read separates rest ih =>
    have first := conserved read
    rw [Conserves, spelledAll, spelled_sign separates] at first
    simpa [ih] using first

private theorem conserves_listing (conserved : Entails item (Conserves parts)) (read : Listing item before values) :
    spelledAll formNames before = values.flatMap parts := by
  cases read with
  | bracketed read => simpa [Conserves, spelledAll] using conserves_bracketed conserved read
  | bare read => exact conserves_bareItems conserved read

private theorem conserves_fencedItems (conserved : Entails item (Conserves parts))
    (read : FencedItems item before values) : spelledAll formNames before = values.flatMap parts := by
  induction read with
  | none => rfl
  | comma separates rest ih => rw [spelledAll, spelled_sign separates, List.nil_append, ih]
  | next read rest ih =>
    have first := conserved read
    rw [Conserves, spelledAll_single, spelledAll, List.append_nil] at first
    rw [spelledAll, first, ih, List.flatMap_cons]

private theorem conserves_heldList (conserved : Entails item (Conserves parts)) (read : HeldList item element values) :
    spelled formNames element = values.flatMap parts := by
  rw [← spelled_core element element.line]
  cases read with
  | fenced read => exact conserves_fencedItems conserved read
  | listing read => exact conserves_listing conserved read

end Lists

section Formulas

private theorem itemsAll_eq (formulas : List Formula) : itemsAll formulas = formulas.flatMap items := by
  induction formulas with
  | nil => rfl
  | cons formula rest ih => rw [itemsAll, ih, List.flatMap_cons]

/-- Only the empty formulas drop out of a product, and they have no items. -/
theorem items_product (factors : List Formula) : items (Formula.product factors) = factors.flatMap items := by
  have multiplied (first : Formula) (rest : List Formula) :
      items (rest.foldl (.binary .mul) first) = items first ++ rest.flatMap items := by
    induction rest generalizing first with
    | nil => exact (List.append_nil _).symm
    | cons next rest ih => rw [List.foldl_cons, ih, items, List.flatMap_cons, List.append_assoc]
  have kept : (factors.filter (!·.isEmpty)).flatMap items = factors.flatMap items := by
    induction factors with
    | nil => rfl
    | cons factor rest ih =>
      rw [List.filter_cons, List.flatMap_cons]
      split
      · rw [List.flatMap_cons, ih]
      · rename_i dropped
        cases factor with
        | empty => rw [ih, items, List.nil_append]
        | _ => exact absurd rfl dropped
  rw [Formula.product, ← kept]
  split
  · rename_i none
    rw [none]
    rfl
  · rename_i first rest some
    rw [some, multiplied, List.flatMap_cons]

private theorem conserves_termRest {factor : Reading Formula} (conserved : Entails factor (Conserves items))
    (read : TermRest factor run before value after) :
    run.flatMap items ++ spelledAll formNames before = items value ++ spelledAll formNames after := by
  induction read with
  | done => rw [items_product]
  | signed op multiplies spells read rest ih =>
    have operand := conserved read
    rw [Conserves] at operand
    rw [← ih, spelledAll, spelled_sign spells, operand]
    simp [items, items_product]
  | beside read rest ih =>
    have operand := conserved read
    rw [Conserves] at operand
    rw [← ih, operand]
    simp

private theorem conserves_sumRest {term : Reading Formula} (conserved : Entails term (Conserves items))
    (read : SumRest term sum before value after) :
    items sum ++ spelledAll formNames before = items value ++ spelledAll formNames after := by
  induction read with
  | done => rfl
  | next op adds spells read rest ih =>
    have operand := conserved read
    rw [Conserves] at operand
    rw [← ih, spelledAll, spelled_sign spells, operand]
    simp [items]

private theorem conserves_arguments {expression : Reading Formula} (conserved : Entails expression (Conserves items)) :
    Entails (Arguments expression) (Conserves itemsAll) := by
  intro before values after read
  rw [Conserves, itemsAll_eq]
  cases read with
  | bracketed read => exact conserves_bracketed conserved read
  | element read => rw [spelledAll, conserves_heldList conserved read]

private theorem conserves_pair {expression : Reading Formula} (conserved : Entails expression (Conserves items))
    (read : Pair expression children first second) :
    spelledAll formNames children = items first ++ items second := by
  obtain ⟨⟨left, right, rfl, readLeft, readRight⟩, -⟩ := read
  have first := conserved readLeft
  have second := conserved readRight
  simp only [Conserves, spelledAll, List.append_nil] at first second ⊢
  rw [first, second]

private theorem conserves_filled {expression : Reading Formula} (conserved : Entails expression (Conserves items))
    (read : expression before value []) : spelledAll formNames before = items value := by
  simpa [Conserves, spelledAll] using conserved read

private theorem conserves_factor {factor expression : Reading Formula} (factors : Entails factor (Conserves items))
    (expressions : Entails expression (Conserves items)) :
    Entails (FactorForm factor expression) (Conserves items) := by
  intro before value after read
  rw [Conserves]
  cases read with
  | number tag spells => rw [spelledAll, spelled_number tag, spells, items]
  | identifier tag named => rw [spelledAll, spelled_name tag, items]
  | call tag named applies read fits =>
    have arguments := conserves_arguments expressions read
    rw [Conserves] at arguments
    rw [spelledAll, spelledAll, spelled_name tag, spelled_sign applies, arguments, items]
    rfl
  | emptyGroup tag none => rw [spelledAll, spelled_group tag, none, spelledAll, items]
  | group tag read => rw [spelledAll, spelled_group tag, conserves_filled expressions read]
  | signed op spells read =>
    rw [spelledAll, spelled_sign spells, items]
    exact factors read
  | enclosed opens read closes =>
    have inside := expressions read
    rw [Conserves, spelledAll, spelled_sign closes] at inside
    rw [spelledAll, spelled_sign opens]
    exact inside
  | fraction tag read =>
    rw [spelledAll, spelled_inner tag (by decide), conserves_pair expressions read, items]
    rfl
  | power tag read | root tag read =>
    rw [spelledAll, spelled_inner tag (by decide), conserves_pair expressions read]
    simp [formNames, items, itemsAll]
  | squareRoot tag read =>
    rw [spelledAll, spelled_inner tag (by decide), conserves_filled expressions read]
    simp [formNames, items, itemsAll]

private theorem conserves_all : Compositional (Conserves items) where
  ofTerm := by
    rintro factor conserved before value after ⟨first, middle, read, rest⟩
    have front := conserved read
    rw [Conserves] at front
    simpa [Conserves, front] using conserves_termRest conserved rest
  ofSum := by
    rintro term conserved before value after ⟨first, middle, read, rest⟩
    have front := conserved read
    rw [Conserves] at front
    simpa [Conserves, front] using conserves_sumRest conserved rest
  ofFactor := conserves_factor

end Formulas

/-! ## Statements -/

private theorem conserves_name : Entails Name (Conserves ([.name ·])) := by
  intro before name after read
  cases read with
  | intro tag named => rw [Conserves, spelledAll, spelled_name tag]

private theorem conserves_identifier : Entails (Gives Grammar.identifier) (Conserves ([.name ·])) :=
  entails_trans gives_identifier conserves_name

private theorem conserves_head (read : Head line children name parameters) :
    spelledAll formNames children = .name name :: parameters.map .name := by
  obtain ⟨sign, rest, applies, named, listed⟩ := read.shape
  have front := conserves_name named
  rw [Conserves, spelledAll, spelled_sign applies] at front
  have behind : spelledAll formNames rest = parameters.map .name := by
    rw [List.map_eq_flatMap]
    cases listed with
    | held shape read => rw [shape, spelledAll_single, conserves_heldList conserves_identifier read]
    | listing read => exact conserves_listing conserves_identifier read
  rw [front, behind]
  rfl

private theorem conserves_body (read : BodyForm (Gives Grammar.expression) before value) :
    spelledAll formNames before = items value := by
  have expressions := expression_entails conserves_all
  cases read with
  | assignment equals named notConstant read =>
    have front := conserves_name named
    rw [Conserves, spelledAll, spelled_sign equals, conserves_filled expressions read] at front
    rw [front, items]
    rfl
  | definition equals tag head read =>
    rw [spelledAll, spelledAll, spelled_group (.inl tag), spelled_sign equals, conserves_head head,
      conserves_filled expressions read, items]
    rfl
  | expression read => exact conserves_filled expressions read

/-- A statement that is accepted has the numbers and names that its element spells, each once and in the same
order; a power, a root and a square root stand for the name of their function. -/
theorem statement_items_are_spelled {element : Element} {statement : Statement}
    (accepted : Statement.ofElement element = .ok statement) :
    items statement.body = spelled formNames element := by
  obtain ⟨tag, -, read⟩ := statement_ok accepted
  rw [← conserves_body read, spelled_statementRow, spelled_inner tag (by decide)]
  rfl

/-- A function is defined as a power beside an empty group and a parameter. -/
def powerTimesParameter : Element :=
  ⟨"math", "f\u2061(x,y)=x2y", 1, [
    ⟨"mrow", "f\u2061(x,y)", 1, [
      ⟨"mi", "f", 1, []⟩, ⟨"mo", "\u2061", 1, []⟩,
      ⟨"mrow", "(x,y)", 1, [⟨"mo", "(", 1, []⟩, ⟨"mi", "x", 1, []⟩, ⟨"mo", ",", 1, []⟩, ⟨"mi", "y", 1, []⟩,
        ⟨"mo", ")", 1, []⟩]⟩]⟩,
    ⟨"mo", "=", 1, []⟩,
    ⟨"msup", "x2", 2, [⟨"mi", "x", 2, []⟩, ⟨"mn", "2", 2, []⟩]⟩, ⟨"mrow", "", 2, []⟩, ⟨"mtext", "y", 2, []⟩]⟩

theorem power_times_parameter_is_spelled :
    ∃ statement, Statement.ofElement powerTimesParameter = .ok statement ∧
      items statement.body = spelled formNames powerTimesParameter :=
  ⟨⟨.definition "f" ["x", "y"] (.binary .mul (.call "pow" [.identifier "x", .number (.integer 2)])
    (.identifier "y")), some 1⟩, by rfl, statement_items_are_spelled (by rfl)⟩

/-- The square root of a variable. -/
def squareRootOfVariable : Element :=
  ⟨"math", "x", 1, [⟨"msqrt", "x", 1, [⟨"mi", "x", 1, []⟩]⟩]⟩

/-- The markup of a square root has no name for its function. -/
theorem square_root_adds_a_name :
    Statement.ofElement squareRootOfVariable = .ok ⟨.call "sqrt" [.identifier "x"], some 1⟩ ∧
      items (.call "sqrt" [.identifier "x"]) ≠ spelled (fun _ => []) squareRootOfVariable := by
  refine ⟨rfl, fun same => ?_⟩
  have fewer := congrArg List.length same
  simp [items, itemsAll, spelled, spelledAll, squareRootOfVariable] at fewer

end FormulaSheet.ReadingConservation
