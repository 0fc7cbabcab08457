import FormulaSheet.Proofs.FaultLines

/-! Brackets in what has been read are balanced and of matching kinds. The rules never count brackets: one rule reads
an expression in brackets, another a list in brackets, and a list in brackets may be given up and read anew. Balance is
therefore a property of the stretch of siblings that a rule takes, proved along the rules, and it holds at every level
of siblings below the stretch as well. -/
namespace FormulaSheet.BracketBalance
open Markup (Element)
open FormulaReading

/-! ## Balance -/

/-- A bracket among operators. -/
inductive Mark where
  | opens (bracket : Bracket)
  | closes (bracket : Bracket)
  deriving DecidableEq, Repr

/-- The bracket that an operator is. -/
def markOf? : Operator → Option Mark
  | .opening bracket => some (.opens bracket)
  | .closing bracket => some (.closes bracket)
  | .plus | .minus | .times | .divide | .equals | .comma | .application => none

/-- The brackets among siblings, from left to right. -/
def marks (elements : List Element) : List Mark :=
  elements.filterMap fun element => element.operator?.bind markOf?

/-- Every bracket is closed by one of its kind, and what stands between the two is balanced too. -/
inductive Balanced : List Mark → Prop where
  | none : Balanced []
  | pair (inside : Balanced middle) (behind : Balanced rest) :
      Balanced (.opens bracket :: (middle ++ .closes bracket :: rest))

/-- Whether brackets close those that are open in front of them, innermost first, and each other. -/
def settles : List Bracket → List Mark → Bool
  | opened, [] => opened.isEmpty
  | opened, .opens bracket :: rest => settles (bracket :: opened) rest
  | [], .closes _ :: _ => false
  | inner :: outer, .closes bracket :: rest => inner = bracket && settles outer rest

/-- Balanced brackets with the closing brackets between them that open ones in front ask for. -/
inductive Settled : List Bracket → List Mark → Prop where
  | done (behind : Balanced rest) : Settled [] rest
  | next (inside : Balanced middle) (behind : Settled outer rest) :
      Settled (bracket :: outer) (middle ++ .closes bracket :: rest)

private theorem balanced_append (first : Balanced front) (second : Balanced back) : Balanced (front ++ back) := by
  induction first with
  | none => exact second
  | pair inside behind _ ih => simpa using Balanced.pair inside ih

private theorem settled_append (first : Balanced front) (second : Settled opened back) : Settled opened
    (front ++ back) := by
  cases second with
  | done behind => exact .done (balanced_append first behind)
  | next inside behind => simpa using Settled.next (balanced_append first inside) behind

private theorem settled_of_settles (passes : settles opened brackets) : Settled opened brackets := by
  fun_induction settles opened brackets with
  | case1 opened =>
    obtain rfl : opened = [] := by simpa using passes
    exact .done .none
  | case2 opened bracket rest ih =>
    -- What closes the bracket makes a balanced front of what follows it.
    cases ih passes with
    | next inside behind => simpa using settled_append (.pair inside .none) behind
  | case3 => cases passes
  | case4 inner outer bracket rest ih =>
    obtain ⟨rfl, later⟩ : inner = bracket ∧ settles outer rest := by simpa using passes
    exact .next .none (ih later)

private theorem settles_of_balanced (balanced : Balanced front) (opened : List Bracket) (back : List Mark) :
    settles opened (front ++ back) = settles opened back := by
  induction balanced generalizing opened back with
  | none => rfl
  | pair inside behind ihInside ihBehind => simp [settles, ihInside, ihBehind]

/-- Balance is decided by going over the brackets once with those that are open. -/
theorem settles_iff_balanced : settles [] brackets ↔ Balanced brackets := by
  constructor
  · intro passes
    cases settled_of_settles passes with
    | done balanced => exact balanced
  · intro balanced
    simpa [settles] using settles_of_balanced balanced [] []

instance (brackets : List Mark) : Decidable (Balanced brackets) := decidable_of_iff _ settles_iff_balanced

/-! ## Levels of siblings -/

/-- Tags of the elements that are read without a look at what stands below them. -/
def leafTags : List String := ["mn", "mi", "mtext", "mo"]

/-- The rows of siblings into which reading goes down from a row, and the row itself. -/
inductive Level : List Element → List Element → Prop where
  | here : Level row row
  | down (member : element ∈ row) (inner : element.name ∉ leafTags) (deeper : Level element.children level) :
      Level row level

/-- Brackets are balanced among siblings and at every level below them. -/
def Throughout (row : List Element) : Prop := ∀ ⦃level⦄, Level row level → Balanced (marks level)

private theorem throughout_iff : Throughout row ↔
    Balanced (marks row) ∧ ∀ element ∈ row, element.name ∉ leafTags → Throughout element.children := by
  constructor
  · intro balanced
    exact ⟨balanced .here, fun element member inner level deeper => balanced (.down member inner deeper)⟩
  · rintro ⟨balanced, below⟩ level reached
    cases reached with
    | here => exact balanced
    | down member inner deeper => exact below _ member inner deeper

private theorem throughout_nil : Throughout [] := throughout_iff.mpr ⟨.none, nofun⟩

private theorem throughout_append (first : Throughout front) (second : Throughout back) : Throughout
    (front ++ back) := by
  rw [throughout_iff] at first second ⊢
  refine ⟨?_, fun element member => ?_⟩
  · rw [marks, List.filterMap_append]
    exact balanced_append first.1 second.1
  · rcases List.mem_append.mp member with member | member
    · exact first.2 element member
    · exact second.2 element member

private theorem mark_of_sign {element : Element} (spells : element.operator? = some operator) :
    marks (element :: rest) = (markOf? operator).toList ++ marks rest := by
  cases marked : markOf? operator <;> simp [marks, spells, marked]

private theorem mark_of_tag {element : Element} (tag : element.name ≠ "mo") : marks (element :: rest) = marks rest := by
  simp [marks, Element.operator?, tag]

/-- Nothing below an operator is read. -/
theorem leaf_of_sign {element : Element} (spells : element.operator? = some operator) :
    element.name ∈ leafTags := by
  rw [name_of_operator? spells]
  decide

private theorem throughout_sign {element : Element} (spells : element.operator? = some operator)
    (plain : markOf? operator = none) : Throughout [element] := by
  rw [throughout_iff, mark_of_sign spells, plain]
  refine ⟨.none, fun other member inner => ?_⟩
  obtain rfl := List.mem_singleton.mp member
  exact absurd (leaf_of_sign spells) inner

private theorem throughout_element {element : Element} (tag : element.name ≠ "mo")
    (below : element.name ∉ leafTags → Throughout element.children) : Throughout [element] := by
  rw [throughout_iff, mark_of_tag tag]
  refine ⟨.none, fun other member inner => ?_⟩
  obtain rfl := List.mem_singleton.mp member
  exact below inner

private theorem throughout_leaf {element : Element} (tag : element.name = leaf) (known : leaf ∈ leafTags)
    (named : leaf ≠ "mo") :
    Throughout [element] :=
  throughout_element (tag ▸ named) fun inner => absurd (tag ▸ known) inner

private theorem throughout_name {element : Element} (tag : element.name = "mi" ∨ element.name = "mtext") :
    Throughout [element] := by
  rcases tag with tag | tag <;> exact throughout_leaf tag (by decide) (by decide)

private theorem throughout_inner {element : Element} (tag : element.name = outer) (named : outer ≠ "mo")
    (below : Throughout element.children) : Throughout [element] :=
  throughout_element (tag ▸ named) fun _ => below

private theorem throughout_group {element : Element} (tag : element.name = "mrow" ∨ element.name = "mfenced")
    (below : Throughout element.children) : Throughout [element] := by
  rcases tag with tag | tag <;> exact throughout_inner tag (by decide) below

/-- A bracket and the one that closes it. -/
theorem throughout_enclosed (opens : opening.operator? = some (.opening bracket)) (inside : Throughout middle)
    (closes : closing.operator? = some (.closing bracket)) : Throughout (opening :: (middle ++ [closing])) := by
  rw [throughout_iff] at inside ⊢
  refine ⟨?_, fun element member inner => ?_⟩
  · have ending : marks [closing] = [.closes bracket] := mark_of_sign closes
    rw [mark_of_sign opens, marks, List.filterMap_append, ← marks, ← marks, ending]
    exact .pair inside.1 .none
  · simp only [List.mem_cons, List.mem_append, List.not_mem_nil, or_false] at member
    rcases member with rfl | member | rfl
    · exact absurd (leaf_of_sign opens) inner
    · exact inside.2 element member inner
    · exact absurd (leaf_of_sign closes) inner

/-- Stripping groups leaves no bracket behind. -/
theorem throughout_core (element : Element) (owner : Option Nat) (heart : Throughout (element.core owner).row.rest) :
    Throughout [element] := by
  fun_induction Element.core owner element with
  | case1 owner value line child ih => exact throughout_group (.inl rfl) (ih heart)
  | case2 owner value line children several => exact throughout_group (.inl rfl) heart
  | case3 owner value line child ih => exact throughout_group (.inr rfl) (ih heart)
  | case4 owner value line children several => exact throughout_group (.inr rfl) heart
  | case5 owner element => exact heart

private theorem throughout_statementRow (element : Element) (body : Throughout element.statementRow.rest) :
    Throughout element.children := by
  fun_induction Element.statementRow element with
  | case1 name text outer value line children ih => exact throughout_group (.inl rfl) (ih body)
  | case2 name value line children several => exact body

/-! ## Each rule balances -/

/-- What stands between two places of a row is a stretch of siblings with balanced brackets. -/
def Spans (before after : List Element) : Prop := ∃ stretch, before = stretch ++ after ∧ Throughout stretch

/-- What is read spans the row up to what is left. -/
def Balances {α : Type} : Reading α := fun before _ after => Spans before after

section Spans

private theorem spans_nothing : Spans before before := ⟨[], rfl, throughout_nil⟩

private theorem spans_element (element : Throughout [front]) : Spans (front :: after) after := ⟨[front], rfl, element⟩

private theorem spans_trans (front : Spans before middle) (back : Spans middle after) : Spans before after := by
  obtain ⟨read, rfl, balanced⟩ := front
  obtain ⟨more, rfl, balancedMore⟩ := back
  exact ⟨read ++ more, by simp, throughout_append balanced balancedMore⟩

private theorem spans_sign (spells : sign.operator? = some operator) (plain : markOf? operator = none)
    (behind : Spans middle after) : Spans (sign :: middle) after :=
  spans_trans (spans_element (throughout_sign spells plain)) behind

private theorem spans_enclosed (opens : opening.operator? = some (.opening bracket))
    (inside : Spans before (closing :: after))
    (closes : closing.operator? = some (.closing bracket)) : Spans (opening :: before) after := by
  obtain ⟨stretch, rfl, balanced⟩ := inside
  exact ⟨opening :: (stretch ++ [closing]), by simp, throughout_enclosed opens balanced closes⟩

private theorem spans_all_iff : Spans before [] ↔ Throughout before := by simp [Spans]

end Spans

section Lists

variable {α : Type} {item : Reading α}

/-- Items and commas are balanced up to the bracket that closes them. -/
theorem spans_bracketedItems (balanced : Entails item Balances)
    (read : BracketedItems item bracket before values after) :
    ∃ closing, closing.operator? = some (.closing bracket) ∧ Spans before (closing :: after) := by
  induction read with
  | last read closes => exact ⟨_, closes, balanced read⟩
  | next read separates rest ih =>
    obtain ⟨closing, closes, later⟩ := ih
    exact ⟨closing, closes, spans_trans (balanced read) (spans_sign separates rfl later)⟩

private theorem balances_bracketed (balanced : Entails item Balances) : Entails (Bracketed item bracket) Balances := by
  intro before values after read
  cases read with
  | none opens closes => exact spans_enclosed opens spans_nothing closes
  | items opens read =>
    obtain ⟨closing, closes, inside⟩ := spans_bracketedItems balanced read
    exact spans_enclosed opens inside closes

private theorem spans_bareItems (balanced : Entails item Balances) (read : BareItems item before values) :
    Spans before [] := by
  induction read with
  | none => exact spans_nothing
  | last read => exact balanced read
  | next read separates rest ih => exact spans_trans (balanced read) (spans_sign separates rfl ih)

private theorem spans_listing (balanced : Entails item Balances) (read : Listing item before values) :
    Spans before [] := by
  cases read with
  | bracketed read => exact balances_bracketed balanced read
  | bare read => exact spans_bareItems balanced read

/-- An item of its own cannot be a bracket. -/
theorem spans_fencedItems (balanced : Entails item Balances) (read : FencedItems item before values) :
    Spans before [] := by
  induction read with
  | none => exact spans_nothing
  | comma separates rest ih => exact spans_sign separates rfl ih
  | next read rest ih => exact spans_trans (spans_element (spans_all_iff.mp (balanced read))) ih

private theorem throughout_heldList (balanced : Entails item Balances) (read : HeldList item element values) :
    Throughout [element] := by
  apply throughout_core element element.line
  rw [← spans_all_iff]
  cases read with
  | fenced read => exact spans_fencedItems balanced read
  | listing read => exact spans_listing balanced read

end Lists

section Formulas

variable {factor term expression : Reading Formula}

private theorem markOf?_binarySign (op : BinaryOp) : markOf? (binarySign op) = none := by cases op <;> rfl

private theorem markOf?_unarySign (op : UnaryOp) : markOf? (unarySign op) = none := by cases op <;> rfl

private theorem spans_termRest (balanced : Entails factor Balances) (read : TermRest factor run before value after) :
    Spans before after := by
  induction read with
  | done => exact spans_nothing
  | signed op multiplies spells read rest ih =>
    exact spans_sign spells (markOf?_binarySign op) (spans_trans (balanced read) ih)
  | beside read rest ih => exact spans_trans (balanced read) ih

private theorem spans_sumRest (balanced : Entails term Balances) (read : SumRest term sum before value after) :
    Spans before after := by
  induction read with
  | done => exact spans_nothing
  | next op adds spells read rest ih =>
    exact spans_sign spells (markOf?_binarySign op) (spans_trans (balanced read) ih)

private theorem balances_arguments (balanced : Entails expression Balances) : Entails
    (Arguments expression) Balances := by
  intro before values after read
  cases read with
  | bracketed read => exact balances_bracketed balanced read
  | element read => exact spans_element (throughout_heldList balanced read)

private theorem throughout_pair (balanced : Entails expression Balances)
    (read : Pair expression children first second) :
    Throughout children := by
  obtain ⟨⟨left, right, rfl, readLeft, readRight⟩, -⟩ := read
  exact throughout_append (spans_all_iff.mp (balanced readLeft)) (spans_all_iff.mp (balanced readRight))

private theorem balances_factor (factors : Entails factor Balances) (expressions : Entails expression Balances) :
    Entails (FactorForm factor expression) Balances := by
  intro before value after read
  cases read with
  | number tag spells => exact spans_element (throughout_leaf tag (by decide) (by decide))
  | identifier tag named => exact spans_element (throughout_name tag)
  | call tag named applies read fits =>
    have arguments := spans_sign applies rfl (balances_arguments expressions read)
    exact spans_trans (spans_element (throughout_name tag)) arguments
  | emptyGroup tag none => exact spans_element (throughout_group tag (none ▸ throughout_nil))
  | group tag read => exact spans_element (throughout_group tag (spans_all_iff.mp (expressions read)))
  | signed op spells read => exact spans_sign spells (markOf?_unarySign op) (factors read)
  | enclosed opens read closes => exact spans_enclosed opens (expressions read) closes
  | fraction tag read | power tag read | root tag read =>
    exact spans_element (throughout_inner tag (by decide) (throughout_pair expressions read))
  | squareRoot tag read =>
    exact spans_element (throughout_inner tag (by decide) (spans_all_iff.mp (expressions read)))

private theorem balances_all : Compositional Balances where
  ofTerm := by
    rintro factor balanced before value after ⟨first, middle, read, rest⟩
    exact spans_trans (balanced read) (spans_termRest balanced rest)
  ofSum := by
    rintro term balanced before value after ⟨first, middle, read, rest⟩
    exact spans_trans (balanced read) (spans_sumRest balanced rest)
  ofFactor := balances_factor

end Formulas

/-! ## Statements -/

private theorem balances_name : Entails Name Balances := by
  intro before name after read
  cases read with
  | intro tag named => exact spans_element (throughout_name tag)

private theorem spans_head (read : Head line children name parameters) : Spans children [] := by
  obtain ⟨sign, rest, applies, named, listed⟩ := read.shape
  have identifiers := entails_trans gives_identifier balances_name
  refine spans_trans (balances_name named) (spans_sign applies rfl ?_)
  cases listed with
  | held shape read => exact shape ▸ spans_element (throughout_heldList identifiers read)
  | listing read => exact spans_listing identifiers read

private theorem spans_body (read : BodyForm (Gives Grammar.expression) before value) : Spans before [] := by
  have expressions := expression_entails balances_all
  cases read with
  | assignment equals named notConstant read =>
    exact spans_trans (balances_name named) (spans_sign equals rfl (expressions read))
  | definition equals tag head read =>
    have group := throughout_group (.inl tag) (spans_all_iff.mp (spans_head head))
    exact spans_trans (spans_element group) (spans_sign equals rfl (expressions read))
  | expression read => exact expressions read

/-- An expression takes a balanced stretch of its row, and the row counts the elements of the stretch. -/
theorem expression_spans {row left : Row} (ran : Grammar.expression row = .ok value left) :
    ∃ stretch, row.rest = stretch ++ left.rest ∧ left.taken = row.taken + stretch.length ∧ Throughout stretch := by
  obtain ⟨stretch, shape, balanced⟩ := expression_entails balances_all (gives_of_ok ran)
  have behaves : FaultLines.Behaves (fun _ => True) 1 Grammar.expression row :=
    FaultLines.steady_expression _ ⟨trivial, fun _ _ => trivial, Nat.lt_succ_self _⟩
  rw [FaultLines.Behaves, ran] at behaves
  obtain ⟨read, -, split, counted, -⟩ := behaves
  obtain rfl : stretch = read := List.append_cancel_right (shape.symm.trans split)
  exact ⟨stretch, shape, counted, balanced⟩

/-- **Accepted brackets are balanced and of matching kinds.** An expression is read from a stretch of siblings, from
the place where the row stood to the place where it is left. The brackets of the stretch are balanced, and so are those
at every level of siblings below it that is read; and the same holds of all that an accepted statement contains. -/
theorem accepted_brackets_are_balanced :
    (∀ {row left : Row} {value : Formula}, Grammar.expression row = .ok value left →
      ∃ stretch, row.rest = stretch ++ left.rest ∧ left.taken = row.taken + stretch.length ∧
        ∀ level, Level stretch level → Balanced (marks level)) ∧
    ∀ {element : Element} {statement : Statement}, Statement.ofElement element = .ok statement →
      ∀ level, Level element.children level → Balanced (marks level) := by
  constructor
  · intro row left value ran
    obtain ⟨stretch, shape, counted, balanced⟩ := expression_spans ran
    exact ⟨stretch, shape, counted, fun level reached => balanced reached⟩
  · intro element statement accepted level reached
    obtain ⟨-, -, read⟩ := statement_ok accepted
    exact throughout_statementRow element (spans_all_iff.mp (spans_body read)) reached

/-- A call of two bracketed factors side by side, whose first bracket closes too early for a list in brackets. -/
def callOfProduct : List Element :=
  [⟨"mi", "f", 1, []⟩, ⟨"mo", "\u2061", 1, []⟩,
    ⟨"mrow", "(a)[b]", 1, [⟨"mo", "(", 1, []⟩, ⟨"mi", "a", 1, []⟩, ⟨"mo", ")", 1, []⟩, ⟨"mo", "[", 1, []⟩,
      ⟨"mi", "b", 1, []⟩, ⟨"mo", "]", 1, []⟩]⟩]

/-- The closing bracket behind a call is not read with it; in brackets of its kind the call is a statement. -/
theorem call_of_product_is_balanced :
    ¬ Balanced (marks (callOfProduct ++ [⟨"mo", "]", 1, []⟩])) ∧
    (∃ stretch, callOfProduct ++ [⟨"mo", "]", 1, []⟩] = stretch ++ [⟨"mo", "]", 1, []⟩] ∧ 7 = 4 + stretch.length ∧
      ∀ level, Level stretch level → Balanced (marks level)) ∧
    ∀ level, Level (⟨"mo", "[", 1, []⟩ :: (callOfProduct ++ [⟨"mo", "]", 1, []⟩])) level → Balanced (marks level) := by
  have call : Grammar.expression ⟨4, callOfProduct ++ [⟨"mo", "]", 1, []⟩], none⟩ =
      .ok (.call "f" [.binary .mul (.identifier "a") (.identifier "b")]) ⟨7, [⟨"mo", "]", 1, []⟩], none⟩ := by rfl
  have statement : Statement.ofElement
      ⟨"math", "[f\u2061(a)[b]]", 1, ⟨"mo", "[", 1, []⟩ :: (callOfProduct ++ [⟨"mo", "]", 1, []⟩])⟩ =
      .ok ⟨.call "f" [.binary .mul (.identifier "a") (.identifier "b")], some 1⟩ := by rfl
  exact ⟨by decide, accepted_brackets_are_balanced.1 call, accepted_brackets_are_balanced.2 statement⟩

end FormulaSheet.BracketBalance
