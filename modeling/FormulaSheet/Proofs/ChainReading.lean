import Mathlib.Data.List.Forall2
import FormulaSheet.Formula.Basic

/-! Reading operands with operators between them. Sums and products are chains that associate to the left, sums below
products, and arguments stand between separators up to a closing mark. What an operand is and how the marks look is
left open, so characters and tokens are read by the same loops. Each level is read in front of whatever may follow it,
so that a chain is read back operand by operand. -/
namespace FormulaSheet.ChainReading

/-- Reads something from the front of some symbols. -/
abbrev Reader (σ α : Type) := List σ → Option (α × List σ)

def isSum (op : BinaryOp) : Bool := op = .add || op = .sub

def isProduct (op : BinaryOp) : Bool := op = .mul || op = .div

/-- How operators and arguments are marked, and what two operands are joined to. -/
structure Layout (σ α : Type) where
  operator : BinaryOp → List σ
  operator? : Reader σ BinaryOp
  separator : List σ
  closing : σ
  join : BinaryOp → α → α → α

namespace Layout

variable {σ α : Type}

/-! ## Reading -/

/-- Goes on behind the left operand of a chain, for at most `limit` operators. -/
def chainFrom (layout : Layout σ α) (wanted : BinaryOp → Bool) (operand : Reader σ α) : Nat → α → Reader σ α
  | 0, lhs, symbols => some (lhs, symbols)
  | limit + 1, lhs, symbols =>
    match layout.operator? symbols with
    | some (op, rest) =>
      if wanted op then
        (operand rest).bind fun read => chainFrom layout wanted operand limit (layout.join op lhs read.1) read.2
      else some (lhs, symbols)
    | none => some (lhs, symbols)

/-- Operands with operators of one kind between them. -/
def chain (layout : Layout σ α) (wanted : BinaryOp → Bool) (operand : Reader σ α) : Reader σ α := fun symbols =>
  (operand symbols).bind fun read => layout.chainFrom wanted operand read.2.length read.1 read.2

def product (layout : Layout σ α) (operand : Reader σ α) : Reader σ α := layout.chain isProduct operand

/-- A sum of products. -/
def sum (layout : Layout σ α) (operand : Reader σ α) : Reader σ α := layout.chain isSum (layout.product operand)

variable [DecidableEq σ]

/-- What stands in front of the closing mark. -/
def closed (layout : Layout σ α) (item : Reader σ α) : Reader σ α := fun symbols =>
  (item symbols).bind fun read =>
    if read.2.head? = some layout.closing then some (read.1, read.2.tail) else none

/-- Arguments up to the closing mark, at least one and at most `limit`. -/
def argumentsFrom (layout : Layout σ α) (item : Reader σ α) : Nat → Reader σ (List α)
  | 0, _ => none
  | limit + 1, symbols =>
    (item symbols).bind fun read =>
      if read.2.head? = some layout.closing then some ([read.1], read.2.tail)
      else if layout.separator <+: read.2 then
        (argumentsFrom layout item limit (read.2.drop layout.separator.length)).map fun later =>
          (read.1 :: later.1, later.2)
      else none

/-- Arguments behind the opening mark. -/
def arguments (layout : Layout σ α) (item : Reader σ α) : Reader σ (List α) := fun symbols =>
  if symbols.head? = some layout.closing then some ([], symbols.tail)
  else layout.argumentsFrom item symbols.length symbols

/-! ## What may follow -/

omit [DecidableEq σ]

/-- A chain does not go on with an operator of some kind. -/
def Leaves (layout : Layout σ α) (wanted : BinaryOp → Bool) (rest : List σ) : Prop :=
  ∀ op more, layout.operator? rest = some (op, more) → wanted op = false

/-- An expression ends here: an operand does, and no operator follows. -/
structure Closes (layout : Layout σ α) (Ends : List σ → Prop) (rest : List σ) : Prop where
  ends : Ends rest
  leaves : layout.operator? rest = none

/-- Operators are told apart, and what may stand behind an operand ends it. -/
structure Lawful (layout : Layout σ α) (Ends : List σ → Prop) : Prop where
  operator_read (op : BinaryOp) (rest : List σ) : layout.operator? (layout.operator op ++ rest) = some (op, rest)
  operator_some (op : BinaryOp) : layout.operator op ≠ []
  operator_ends (op : BinaryOp) (rest : List σ) : Ends (layout.operator op ++ rest)
  closes_nil : layout.Closes Ends []
  closes_closing (rest : List σ) : layout.Closes Ends (layout.closing :: rest)
  closes_separator (rest : List σ) : layout.Closes Ends (layout.separator ++ rest)
  separator_apart (rest : List σ) : (layout.separator ++ rest).head? ≠ some layout.closing

private theorem leaves_of_closes {layout : Layout σ α} (closes : layout.Closes Ends rest) (wanted : BinaryOp → Bool) :
    layout.Leaves wanted rest := by
  intro op more next
  rw [closes.leaves] at next
  cases next

private theorem chainFrom_leaves {layout : Layout σ α} (leaves : layout.Leaves wanted rest) (operand : Reader σ α)
    (limit : Nat) (lhs : α) : layout.chainFrom wanted operand limit lhs rest = some (lhs, rest) := by
  unfold chainFrom
  split
  · rfl
  · split
    · rename_i op more next
      simp [leaves op more next]
    · rfl

section Levels

variable {layout : Layout σ α} {Ends : List σ → Prop} {operand : Nat → Reader σ α}

private theorem chainFrom_operator (lawful : layout.Lawful Ends) (goesOn : wanted op) {operand : Reader σ α}
    (read : operand symbols = some (rhs, rest)) (limit : Nat) (lhs : α) :
    layout.chainFrom wanted operand (limit + 1) lhs (layout.operator op ++ symbols) =
      layout.chainFrom wanted operand limit (layout.join op lhs rhs) rest := by
  simp only [chainFrom, lawful.operator_read, goesOn, ↓reduceIte, read, Option.bind_some]

/-! ## Levels -/

/-- The symbols are read as one operand, nested no deeper than they are many. -/
def ReadsOperand (Ends : List σ → Prop) (operand : Nat → Reader σ α) (symbols : List σ) (tree : α) : Prop :=
  ∀ depth rest, symbols.length ≤ depth → Ends rest → operand depth (symbols ++ rest) = some (tree, rest)

/-- The loop of a product that begins with the symbols has gathered the tree behind them. -/
def OpensProduct (layout : Layout σ α) (Ends : List σ → Prop) (operand : Nat → Reader σ α) (symbols : List σ)
    (tree : α) : Prop :=
  ∀ depth rest result, symbols.length ≤ depth → Ends rest →
    (∀ limit, rest.length ≤ limit → layout.chainFrom isProduct (operand depth) limit tree rest = result) →
    layout.product (operand depth) (symbols ++ rest) = result

/-- The loop of a sum that begins with the symbols has gathered the tree behind them. -/
def OpensSum (layout : Layout σ α) (Ends : List σ → Prop) (operand : Nat → Reader σ α) (symbols : List σ)
    (tree : α) : Prop :=
  ∀ depth rest result, symbols.length ≤ depth → Ends rest → layout.Leaves isProduct rest →
    (∀ limit, rest.length ≤ limit →
      layout.chainFrom isSum (layout.product (operand depth)) limit tree rest = result) →
    layout.sum (operand depth) (symbols ++ rest) = result

private theorem opensProduct_of_operand (read : ReadsOperand Ends operand symbols tree) :
    layout.OpensProduct Ends operand symbols tree := by
  intro depth rest result fits ends done
  rw [product, chain, read depth rest fits ends]
  exact done _ (Nat.le_refl _)

/-- A product grows by an operand behind an operator. -/
theorem opensProduct_operator (lawful : layout.Lawful Ends) (goesOn : isProduct op)
    (opens : layout.OpensProduct Ends operand left lhs) (read : ReadsOperand Ends operand right rhs) :
    layout.OpensProduct Ends operand (left ++ (layout.operator op ++ right)) (layout.join op lhs rhs) := by
  intro depth rest result fits ends done
  have mark := List.length_pos_iff.mpr (lawful.operator_some op)
  simp only [List.length_append] at fits
  rw [List.append_assoc, List.append_assoc]
  refine opens depth _ result (by omega) (lawful.operator_ends op _) fun limit enough => ?_
  simp only [List.length_append] at enough
  obtain ⟨fewer, rfl⟩ : ∃ fewer, limit = fewer + 1 := ⟨limit - 1, by omega⟩
  rw [chainFrom_operator lawful goesOn (read depth rest (by omega) ends)]
  exact done fewer (by omega)

private theorem product_reads (opens : layout.OpensProduct Ends operand symbols tree) (fits : symbols.length ≤ depth)
    (ends : Ends rest) (leaves : layout.Leaves isProduct rest) :
    layout.product (operand depth) (symbols ++ rest) = some (tree, rest) :=
  opens depth rest _ fits ends fun limit _ => chainFrom_leaves leaves _ limit tree

private theorem opensSum_of_product (opens : layout.OpensProduct Ends operand symbols tree) :
    layout.OpensSum Ends operand symbols tree := by
  intro depth rest result fits ends leaves done
  rw [sum, chain, product_reads opens fits ends leaves]
  exact done _ (Nat.le_refl _)

/-- A sum grows by a product behind an operator. -/
theorem opensSum_operator (lawful : layout.Lawful Ends) (goesOn : isSum op)
    (opens : layout.OpensSum Ends operand left lhs) (term : layout.OpensProduct Ends operand right rhs) :
    layout.OpensSum Ends operand (left ++ (layout.operator op ++ right)) (layout.join op lhs rhs) := by
  intro depth rest result fits ends leaves done
  have mark := List.length_pos_iff.mpr (lawful.operator_some op)
  have noFactor (symbols : List σ) : layout.Leaves isProduct (layout.operator op ++ symbols) := by
    intro found more next
    rw [lawful.operator_read] at next
    cases next
    cases op with
    | add | sub => rfl
    | mul | div => cases goesOn
  simp only [List.length_append] at fits
  rw [List.append_assoc, List.append_assoc]
  refine opens depth _ result (by omega) (lawful.operator_ends op _) (noFactor _) fun limit enough => ?_
  simp only [List.length_append] at enough
  obtain ⟨fewer, rfl⟩ : ∃ fewer, limit = fewer + 1 := ⟨limit - 1, by omega⟩
  rw [chainFrom_operator lawful goesOn (product_reads term (by omega) ends leaves)]
  exact done fewer (by omega)

theorem sum_reads (opens : layout.OpensSum Ends operand symbols tree) (fits : symbols.length ≤ depth)
    (closes : layout.Closes Ends rest) : layout.sum (operand depth) (symbols ++ rest) = some (tree, rest) :=
  opens depth rest _ fits closes.ends (leaves_of_closes closes _) fun limit _ =>
    chainFrom_leaves (leaves_of_closes closes _) _ limit tree

/-! ## Strengths -/

/-- How strongly two operands hold together. A single operand has at least the strength 3. -/
def strengthOf (op : BinaryOp) : Nat := if isSum op then 1 else 2

/-- The symbols are read as a tree, in every place that asks for no more than their strength. -/
structure ReadBack (layout : Layout σ α) (Ends : List σ → Prop) (operand : Nat → Reader σ α) (strength : Nat)
    (symbols : List σ) (tree : α) : Prop where
  alone : 3 ≤ strength → ReadsOperand Ends operand symbols tree
  factor : 2 ≤ strength → layout.OpensProduct Ends operand symbols tree
  whole : layout.OpensSum Ends operand symbols tree

theorem readBack_of_operand (read : ReadsOperand Ends operand symbols tree) :
    layout.ReadBack Ends operand strength symbols tree where
  alone _ := read
  factor _ := opensProduct_of_operand read
  whole := opensSum_of_product (opensProduct_of_operand read)

theorem readBack_of_stronger (read : layout.ReadBack Ends operand strength symbols tree) (weak : least ≤ strength) :
    layout.ReadBack Ends operand least symbols tree where
  alone strong := read.alone (by omega)
  factor strong := read.factor (by omega)
  whole := read.whole

/-- The first operand may be a chain of the same kind, the second one must be stronger. -/
theorem readBack_operator (lawful : layout.Lawful Ends) (op : BinaryOp)
    (first : layout.ReadBack Ends operand (strengthOf op) left lhs)
    (second : layout.ReadBack Ends operand (strengthOf op + 1) right rhs) :
    layout.ReadBack Ends operand (strengthOf op) (left ++ (layout.operator op ++ right)) (layout.join op lhs rhs) := by
  by_cases sums : isSum op
  · rw [strengthOf, if_pos sums] at first second ⊢
    exact ⟨by simp, by simp, opensSum_operator lawful sums first.whole (second.factor (by simp))⟩
  · have multiplies : isProduct op := by
      cases op with
      | add | sub => exact absurd rfl sums
      | mul | div => rfl
    rw [strengthOf, if_neg sums] at first second ⊢
    have opens := opensProduct_operator lawful multiplies (first.factor (by simp)) (second.alone (by simp))
    exact ⟨by simp, fun _ => opens, opensSum_of_product opens⟩

/-! ## Arguments -/

variable [DecidableEq σ]

theorem closed_reads (lawful : layout.Lawful Ends) (opens : layout.OpensSum Ends operand symbols tree)
    (fits : symbols.length ≤ depth) (rest : List σ) :
    layout.closed (layout.sum (operand depth)) (symbols ++ layout.closing :: rest) = some (tree, rest) := by
  rw [closed, sum_reads opens fits (lawful.closes_closing rest)]
  simp

private theorem argumentsFrom_reads (lawful : layout.Lawful Ends) (opens : layout.OpensSum Ends operand first tree)
    (later : List.Forall₂ (layout.OpensSum Ends operand) others trees)
    (fits : (layout.separator.intercalate (first :: others)).length ≤ depth) (enough : others.length < limit)
    (rest : List σ) :
    layout.argumentsFrom (layout.sum (operand depth)) limit
      (layout.separator.intercalate (first :: others) ++ layout.closing :: rest) = some (tree :: trees, rest) := by
  obtain ⟨limit, rfl⟩ : ∃ fewer, limit = fewer + 1 := ⟨limit - 1, by omega⟩
  induction later generalizing first tree limit with
  | nil =>
    rw [List.intercalate_singleton] at fits ⊢
    rw [argumentsFrom, sum_reads opens fits (lawful.closes_closing rest)]
    simp
  | @cons next nextTree others trees opensNext later ih =>
    rw [List.intercalate_cons_cons] at fits ⊢
    simp only [List.length_append, List.length_cons] at fits enough
    obtain ⟨limit, rfl⟩ : ∃ fewer, limit = fewer + 1 := ⟨limit - 1, by omega⟩
    rw [List.append_assoc, List.append_assoc, argumentsFrom, sum_reads opens (by omega) (lawful.closes_separator _)]
    simp only [Option.bind_some, lawful.separator_apart, ↓reduceIte, List.prefix_append, List.drop_left,
      ih opensNext (by omega) limit (by omega), Option.map_some]

omit [DecidableEq σ] in
/-- Several lists with something between them have at least as many symbols as separators. -/
theorem separators_le {separator : List σ} (some : separator ≠ []) (first : List σ) (others : List (List σ)) :
    others.length ≤ (separator.intercalate (first :: others)).length := by
  have mark := List.length_pos_iff.mpr some
  induction others generalizing first with
  | nil => exact Nat.zero_le _
  | cons next others ih =>
    have later := ih next
    simp only [List.intercalate_cons_cons, List.length_append, List.length_cons]
    omega

/-- Arguments that are read one by one are read together, unless the closing mark is one. -/
theorem arguments_reads (lawful : layout.Lawful Ends)
    (refused : ∀ rest, layout.sum (operand depth) (layout.closing :: rest) = none)
    (each : List.Forall₂ (layout.OpensSum Ends operand) writings trees)
    (fits : (layout.separator.intercalate writings).length ≤ depth) (rest : List σ) :
    layout.arguments (layout.sum (operand depth)) (layout.separator.intercalate writings ++ layout.closing :: rest) =
      some (trees, rest) := by
  cases each with
  | nil => simp [arguments]
  | @cons first tree others trees opens later =>
    have some : layout.separator ≠ [] := by
      intro none
      simpa [none] using lawful.separator_apart [layout.closing]
    have enough : others.length <
        (layout.separator.intercalate (first :: others) ++ layout.closing :: rest).length := by
      have := separators_le some first others
      rw [List.length_append, List.length_cons]
      omega
    have read := argumentsFrom_reads lawful opens later fits enough rest
    have unclosed : (layout.separator.intercalate (first :: others) ++ layout.closing :: rest).head? ≠
        Option.some layout.closing := by
      intro begins
      obtain ⟨tail, shape⟩ := List.head?_eq_some_iff.mp begins
      rw [shape, List.length_cons, argumentsFrom, refused] at read
      cases read
    rw [arguments, if_neg unclosed, read]

end Levels

end Layout

end FormulaSheet.ChainReading
