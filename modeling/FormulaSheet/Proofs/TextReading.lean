import FormulaSheet.Proofs.ChainReading
import FormulaSheet.Proofs.DecimalLiterals

/-! How a reader takes the text of a formula apart. Sums and products are chains of operands with operators between
spaces. An operand may have signs in front of it, and a power binds tighter than they do; only an exponent may begin
with the sign of its literal. -/
namespace FormulaSheet.TextReading
open ChainReading DecimalLiterals

/-! ## Reading -/

/-- Formulas as they are read. A literal is kept as it is spelled and has no sign. -/
inductive Tree where
  | literal (spelling : List Char)
  | name (letters : List Char)
  | binary (op : BinaryOp) (lhs rhs : Tree)
  | unary (op : UnaryOp) (operand : Tree)
  | call (name : List Char) (arguments : List Tree)

def operatorOf? : Char → Option BinaryOp
  | '+' => some .add
  | '-' => some .sub
  | '*' => some .mul
  | '/' => some .div
  | _ => none

/-- An operator between two spaces. -/
def operator? : Reader Char BinaryOp
  | ' ' :: c :: ' ' :: rest => (operatorOf? c).map fun op => (op, rest)
  | _ => none

def layout : Layout Char Tree where
  operator op := ' ' :: (op.symbol.toList ++ [' '])
  operator? := operator?
  separator := [',', ' ']
  closing := ')'
  join := .binary

/-- A name, or a call if a parenthesis follows it. -/
def named (item : Reader Char Tree) (letters : List Char) : Reader Char Tree
  | '(' :: rest => (layout.arguments item rest).map fun read => (.call letters read.1, read.2)
  | rest => some (.name letters, rest)

/-- Characters of literals without a sign; a minus sign stands in front of an exponent. -/
def isLiteralChar (c : Char) : Bool := c.isDigit || c = '.' || c = 'e' || c = '-'

/-- A literal, a name, a call or a formula in parentheses. -/
def atom (item : Reader Char Tree) : Reader Char Tree
  | [] => none
  | '(' :: rest => layout.closed item rest
  | c :: rest =>
    if c.isDigit then
      some (.literal ((c :: rest).takeWhile isLiteralChar), (c :: rest).dropWhile isLiteralChar)
    else if c.isAlpha then named item ((c :: rest).takeWhile Char.isAlpha) ((c :: rest).dropWhile Char.isAlpha)
    else none

def exponent (item : Reader Char Tree) : Reader Char Tree
  | '-' :: rest => (atom item rest).map fun read => (.unary .minus read.1, read.2)
  | cs => atom item cs

/-- An atom, or a power of two operands. -/
def power (item : Reader Char Tree) : Reader Char Tree := fun cs =>
  match atom item cs with
  | some (base, '^' :: rest) =>
    (exponent item rest).map fun read => (.call "pow".toList [base, read.1], read.2)
  | found => found

/-- A power with the signs in front of it, nested at most `depth` deep. -/
def signed : Nat → Reader Char Tree
  | 0, _ => none
  | depth + 1, '-' :: rest => (signed depth rest).map fun read => (.unary .minus read.1, read.2)
  | depth + 1, '+' :: rest => (signed depth rest).map fun read => (.unary .plus read.1, read.2)
  | depth + 1, cs => power (layout.sum (signed depth)) cs

/-- The formula that a text spells. No formula nests deeper than its text has characters. -/
def read? (text : String) : Option Tree :=
  match layout.sum (signed text.toList.length) text.toList with
  | some (tree, []) => some tree
  | _ => none

/-! ## What may follow -/

/-- An operand ends here. -/
def Ends (rest : List Char) : Prop := ∀ c ∈ rest.head?, c = ' ' ∨ c = ')' ∨ c = ','

/-- The base of a power may end here too. -/
def Stops (rest : List Char) : Prop := ∀ c ∈ rest.head?, c = '^' ∨ c = ' ' ∨ c = ')' ∨ c = ','

private theorem stops_of_ends (ends : Ends rest) : Stops rest := fun c next => .inr (ends c next)

theorem lawful : layout.Lawful Ends where
  operator_read op rest := by cases op <;> rfl
  operator_some op := by simp [layout]
  operator_ends op rest := by simp [layout, Ends]
  closes_nil := ⟨by simp [Ends], rfl⟩
  closes_closing rest := ⟨by simp [layout, Ends], rfl⟩
  closes_separator rest := ⟨by simp [layout, Ends], rfl⟩
  separator_apart rest := by simp [layout]

/-! ## Levels -/

/-- The text is read as one atom. -/
def ReadsAtom (cs : List Char) (tree : Tree) : Prop :=
  ∀ depth rest, cs.length ≤ depth + 1 → Stops rest →
    atom (layout.sum (signed depth)) (cs ++ rest) = some (tree, rest)

/-- The text is read as one operand with its signs. -/
abbrev ReadsSigned (cs : List Char) (tree : Tree) : Prop := Layout.ReadsOperand Ends signed cs tree

/-- The text begins a sum. -/
abbrev OpensSum (cs : List Char) (tree : Tree) : Prop := layout.OpensSum Ends signed cs tree

section Levels

variable {cs left right : List Char} {tree lhs rhs : Tree}

/-! ## Signs and powers -/

theorem readsSigned_sign (op : UnaryOp) (read : ReadsSigned cs tree) :
    ReadsSigned (op.symbol.toList ++ cs) (.unary op tree) := by
  intro depth rest fits ends
  have one : op.symbol.toList.length = 1 := by cases op <;> rfl
  rw [List.length_append, one] at fits
  cases depth with
  | zero => omega
  | succ depth =>
    have inside := read depth rest (by omega) ends
    rw [List.append_assoc]
    cases op with
    | minus =>
      change signed (depth + 1) ('-' :: (cs ++ rest)) = _
      rw [signed, inside, Option.map_some]
    | plus =>
      change signed (depth + 1) ('+' :: (cs ++ rest)) = _
      rw [signed, inside, Option.map_some]

/-- An atom does not begin with a sign. -/
theorem signed_of_atom (read : atom (layout.sum (signed depth)) cs = some found) :
    signed (depth + 1) cs = power (layout.sum (signed depth)) cs := by
  rw [signed]
  · rintro rest rfl
    simp [atom] at read
  · rintro rest rfl
    simp [atom] at read

theorem readsSigned_of_atom (read : ReadsAtom cs tree) (some : cs ≠ []) : ReadsSigned cs tree := by
  intro depth rest fits ends
  cases depth with
  | zero => exact absurd (List.eq_nil_of_length_eq_zero (Nat.le_zero.mp fits)) some
  | succ depth =>
    have atom := read depth rest fits (stops_of_ends ends)
    rw [signed_of_atom atom, power, atom]
    split
    · rename_i next
      cases next
      have := ends '^' rfl
      simp at this
    · rfl

/-- The text is read as an exponent. -/
def ReadsExponent (cs : List Char) (tree : Tree) : Prop :=
  ∀ depth rest, cs.length ≤ depth + 1 → Ends rest →
    exponent (layout.sum (signed depth)) (cs ++ rest) = some (tree, rest)

theorem readsExponent_of_atom (read : ReadsAtom cs tree) : ReadsExponent cs tree := by
  intro depth rest fits ends
  have atom := read depth rest fits (stops_of_ends ends)
  unfold exponent
  split
  · rename_i sign
    rw [sign] at atom
    simp [TextReading.atom] at atom
  · exact atom

theorem readsExponent_minus (read : ReadsAtom cs tree) : ReadsExponent ('-' :: cs) (.unary .minus tree) := by
  intro depth rest fits ends
  rw [List.length_cons] at fits
  rw [List.cons_append, exponent, read depth rest (by omega) (stops_of_ends ends)]
  rfl

theorem readsSigned_power (base : ReadsAtom left lhs) (exponent : ReadsExponent right rhs) :
    ReadsSigned (left ++ '^' :: right) (.call "pow".toList [lhs, rhs]) := by
  intro depth rest fits ends
  simp only [List.length_append, List.length_cons] at fits
  cases depth with
  | zero => omega
  | succ depth =>
    have atom := base depth ('^' :: right ++ rest) (by omega) (by simp [Stops])
    rw [List.append_assoc, signed_of_atom atom, power, atom, List.cons_append]
    simp only [exponent depth rest (by omega) ends, Option.map_some]

/-! ## Atoms -/

theorem readsAtom_parenthesized (opens : OpensSum cs tree) : ReadsAtom ('(' :: (cs ++ [')'])) tree := by
  intro depth rest fits stops
  simp only [List.length_cons, List.length_append, List.length_nil] at fits
  rw [List.cons_append, List.append_assoc, atom]
  exact Layout.closed_reads lawful opens (by omega) rest

/-- No character of a literal is one that may follow it. -/
theorem stops_literal (stops : Stops rest) : ∀ c ∈ rest.head?, isLiteralChar c = false := by
  intro c next
  rcases stops c next with rfl | rfl | rfl | rfl <;> rfl

private theorem stops_letters (stops : Stops rest) : ∀ c ∈ rest.head?, Char.isAlpha c = false := by
  intro c next
  rcases stops c next with rfl | rfl | rfl | rfl <;> rfl

theorem readsAtom_literal (digit : c.isDigit) (inside : ∀ d ∈ c :: cs, isLiteralChar d) :
    ReadsAtom (c :: cs) (.literal (c :: cs)) := by
  intro depth rest fits stops
  obtain ⟨taken, dropped⟩ := span_append inside (stops_literal stops)
  have other : c ≠ '(' := by
    rintro rfl
    simp at digit
  rw [List.cons_append] at taken dropped ⊢
  rw [atom]
  · simp only [digit, ↓reduceIte, taken, dropped]
  · exact fun paren => other paren

/-- A name is a word of letters. -/
@[mk_iff]
structure Letters (cs : List Char) : Prop where
  some : cs ≠ []
  each : ∀ c ∈ cs, c.isAlpha

private theorem isDigit_of_isAlpha (letter : Char.isAlpha c) : c.isDigit = false := by
  simp only [Char.isAlpha, Char.isUpper, Char.isLower, Char.isDigit, Bool.or_eq_true, Bool.and_eq_true,
    decide_eq_true_eq, Bool.and_eq_false_iff, decide_eq_false_iff_not] at *
  grind

private theorem atom_letters (letters : Letters cs) (stop : ∀ c ∈ rest.head?, Char.isAlpha c = false)
    (item : Reader Char Tree) :
    atom item (cs ++ rest) = named item cs rest := by
  obtain ⟨c, more, rfl⟩ := List.exists_cons_of_ne_nil letters.some
  obtain ⟨taken, dropped⟩ := span_append letters.each stop
  have letter := letters.each c (by simp)
  have other : c ≠ '(' := by
    rintro rfl
    simp at letter
  rw [List.cons_append] at taken dropped ⊢
  rw [atom]
  · simp only [isDigit_of_isAlpha letter, letter, Bool.false_eq_true, ↓reduceIte, taken, dropped]
  · exact fun paren => other paren

theorem readsAtom_name (letters : Letters cs) : ReadsAtom cs (.name cs) := by
  intro depth rest fits stops
  rw [atom_letters letters (stops_letters stops), named]
  rintro later rfl
  have := stops '(' rfl
  simp at this

/-! ## Calls -/

/-- Several texts, each read as a whole formula. -/
abbrev OpenSums : List String → List Tree → Prop := List.Forall₂ fun text tree => OpensSum text.toList tree

/-- No formula begins with a closing parenthesis. -/
theorem sum_closing (depth : Nat) (rest : List Char) : layout.sum (signed depth) (layout.closing :: rest) = none := by
  cases depth <;> simp [Layout.sum, Layout.chain, Layout.product, layout, signed, power, atom]

theorem readsAtom_call (letters : Letters name) (each : OpenSums texts trees) :
    ReadsAtom (name ++ '(' :: ((String.intercalate ", " texts).toList ++ [')'])) (.call name trees) := by
  intro depth rest fits stops
  simp only [List.length_append, List.length_cons, List.length_nil] at fits
  have chars : (String.intercalate ", " texts).toList = layout.separator.intercalate (texts.map String.toList) :=
    String.toList_intercalate
  rw [chars] at fits ⊢
  have inside := Layout.arguments_reads lawful (sum_closing depth) (List.forall₂_map_left_iff.mpr each) (by omega) rest
  rw [List.append_assoc, atom_letters letters (by simp), List.cons_append, List.append_assoc, named]
  exact congrArg (Option.map _) inside

/-- A text that is read as a whole formula is read. -/
theorem read?_of_opensSum (opens : OpensSum text.toList tree) : read? text = some tree := by
  have read := Layout.sum_reads opens (Nat.le_refl _) lawful.closes_nil
  rw [List.append_nil] at read
  rw [read?, read]

end Levels

end FormulaSheet.TextReading
