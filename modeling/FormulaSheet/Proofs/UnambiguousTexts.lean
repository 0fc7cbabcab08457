import FormulaSheet.Formula.Printer
import FormulaSheet.Proofs.EmittedExpressions
import FormulaSheet.Proofs.TextReading
import FormulaSheet.Proofs.WellFormedSheets

/-! When two formulas have one text. A text is read back as the formula it was printed from, except for the signs of
literals: a sign is read as standing in front of the literal, and in front of the whole power if the literal is the
base of one. So formulas with one text agree once the signs are taken so, and only powers of negative literals share
their text with a formula that means something else. -/
namespace FormulaSheet.UnambiguousTexts
open ChainReading Decimal DecimalLiterals EmittedExpressions FloatParts TextReading WellFormedSheets

/-! ## Signs of literals -/

def isSigned : Number → Bool
  | .integer value => value < 0
  | .float value => isNegative value

def negated : Number → Number
  | .integer value => .integer (-value)
  | .float value => .float (-value)

/-- The text of a number without its sign. -/
def size : Number → List Char
  | .integer value => Nat.toDigits 10 value.toInt.natAbs
  | .float value => (sizeText value).toList

/-- A number with its sign in front of it. -/
def signed (value : Number) : Formula :=
  if isSigned value then .unary .minus (.number (negated value)) else .number value

mutual

/-- The formula with the sign of each negative literal as a minus sign in front of the literal. -/
def unfolded : Formula → Formula
  | .number value => signed value
  | .identifier name => .identifier name
  | .binary op lhs rhs => .binary op (unfolded lhs) (unfolded rhs)
  | .unary op operand => .unary op (unfolded operand)
  | .call name arguments => .call name (allUnfolded arguments)
  | .assignment name value => .assignment name (unfolded value)
  | .definition name parameters body => .definition name parameters (unfolded body)
  | .empty => .empty

def allUnfolded : List Formula → List Formula
  | [] => []
  | formula :: rest => unfolded formula :: allUnfolded rest

end

def isSignedLiteral : Formula → Bool
  | .number value => isSigned value
  | _ => false

/-- Whether a call is a power of a negative literal. -/
def hasSignedBase (name : String) (arguments : List Formula) : Bool :=
  name = "pow" && arguments.head?.any isSignedLiteral

/-- A power with the sign of its base in front of it. -/
def signInFront : List Formula → Formula
  | .unary op base :: exponent => .unary op (.call "pow" (base :: exponent))
  | arguments => .call "pow" arguments

mutual

/-- The formula as its text is read: the sign of a negative literal is a minus sign, and stands in front of the whole
power if the literal is the base of one. -/
def asRead : Formula → Formula
  | .number value => signed value
  | .identifier name => .identifier name
  | .binary op lhs rhs => .binary op (asRead lhs) (asRead rhs)
  | .unary op operand => .unary op (asRead operand)
  | .call name arguments =>
    if hasSignedBase name arguments then signInFront (allAsRead arguments) else .call name (allAsRead arguments)
  | .assignment name value => .assignment name (asRead value)
  | .definition name parameters body => .definition name parameters (asRead body)
  | .empty => .empty

def allAsRead : List Formula → List Formula
  | [] => []
  | formula :: rest => asRead formula :: allAsRead rest

end

mutual

/-- The tree of a formula whose literals have no signs. Declarations and empty groups have none. -/
def shape : Formula → Tree
  | .number value => .literal (size value)
  | .identifier name => .name name.toList
  | .binary op lhs rhs => .binary op (shape lhs) (shape rhs)
  | .unary op operand => .unary op (shape operand)
  | .call name arguments => .call name.toList (shapes arguments)
  | .assignment _ _ | .definition _ _ _ | .empty => .literal []

def shapes : List Formula → List Tree
  | [] => []
  | formula :: rest => shape formula :: shapes rest

end

private theorem allUnfolded_eq_map (formulas : List Formula) : allUnfolded formulas = formulas.map unfolded := by
  induction formulas with
  | nil => rfl
  | cons formula rest ih => rw [allUnfolded, ih, List.map_cons]

private theorem allAsRead_eq_map (formulas : List Formula) : allAsRead formulas = formulas.map asRead := by
  induction formulas with
  | nil => rfl
  | cons formula rest ih => rw [allAsRead, ih, List.map_cons]

private theorem shapes_eq_map (formulas : List Formula) : shapes formulas = formulas.map shape := by
  induction formulas with
  | nil => rfl
  | cons formula rest ih => rw [shapes, ih, List.map_cons]

private theorem operands_eq_map (formulas : List Formula) :
    Formula.operands formulas = formulas.map fun formula => ⟨formula.precedence, formula.text⟩ := by
  induction formulas with
  | nil => rfl
  | cons formula rest ih => rw [Formula.operands, ih, List.map_cons]

/-! ## Formulas whose texts are told apart -/

/-- What is asked of the names of one node of a formula; an empty group has no text at all. -/
def Lettered : Formula → Prop
  | .identifier name | .call name _ => Letters name.toList
  | .empty => False
  | _ => True

/-- All names in a formula are made of letters, and no group is empty. -/
def Plain (formula : Formula) : Prop := ∀ node ∈ formula.preorder, Lettered node

/-- No power in a formula has a negative literal as its base. -/
def Clear (formula : Formula) : Prop :=
  ∀ name arguments, .call name arguments ∈ formula.preorder → hasSignedBase name arguments = false

/-- Sound and plain formulas, by their form. -/
inductive Printable : Formula → Prop where
  | number (proper : Proper (.number value)) : Printable (.number value)
  | identifier (letters : Letters name.toList) : Printable (.identifier name)
  | binary (left : Printable lhs) (right : Printable rhs) : Printable (.binary op lhs rhs)
  | unary (inside : Printable operand) : Printable (.unary op operand)
  | power {base exponent : Formula} (below : Printable base) (above : Printable exponent) :
      Printable (.call "pow" [base, exponent])
  | call {arguments : List Formula} (letters : Letters name.toList) (other : name ≠ "pow")
      (each : ∀ argument ∈ arguments, Printable argument) : Printable (.call name arguments)

private theorem mem_preorder_self (formula : Formula) : formula ∈ formula.preorder := by
  cases formula <;> simp [Formula.preorder]

mutual

private theorem printable_of_sound (formula : Formula) (sound : Sound formula) (plain : Plain formula) :
    Printable formula := by
  cases formula with
  | number value => exact .number (sound _ (mem_preorder_self _))
  | identifier name =>
    have letters : Lettered (.identifier name) := plain _ (mem_preorder_self _)
    exact .identifier letters
  | binary op lhs rhs =>
    rw [sound_binary] at sound
    simp only [Plain, Formula.preorder, List.mem_cons, List.mem_append] at plain
    exact .binary (printable_of_sound lhs sound.1 fun node member => plain node (.inr (.inl member)))
      (printable_of_sound rhs sound.2 fun node member => plain node (.inr (.inr member)))
  | unary op operand =>
    rw [sound_unary] at sound
    simp only [Plain, Formula.preorder, List.mem_cons] at plain
    exact .unary (printable_of_sound operand sound fun node member => plain node (.inr member))
  | call name arguments =>
    rw [sound_call] at sound
    obtain ⟨⟨-, arity⟩, sound⟩ := sound
    have letters : Lettered (.call name arguments) := plain _ (mem_preorder_self _)
    have each := printables_of_sound arguments sound fun argument member node below =>
      plain node (by simpa [Formula.preorder, mem_preorderList] using .inr ⟨argument, member, below⟩)
    by_cases power : name = "pow"
    · subst power
      obtain ⟨base, exponent, rfl⟩ := List.length_eq_two.mp (arity .pow rfl)
      exact .power (each base (by simp)) (each exponent (by simp))
    · exact .call letters power each
  | assignment name value =>
    have none : Proper (.assignment name value) := sound _ (mem_preorder_self _)
    exact none.elim
  | definition name parameters body =>
    have none : Proper (.definition name parameters body) := sound _ (mem_preorder_self _)
    exact none.elim
  | empty =>
    have none : Lettered .empty := plain _ (mem_preorder_self _)
    exact none.elim

private theorem printables_of_sound (formulas : List Formula) (sound : ∀ formula ∈ formulas, Sound formula)
    (plain : ∀ formula ∈ formulas, Plain formula) : ∀ formula ∈ formulas, Printable formula := by
  cases formulas with
  | nil => simp
  | cons first rest =>
    rw [List.forall_mem_cons] at sound plain ⊢
    exact ⟨printable_of_sound first sound.1 plain.1, printables_of_sound rest sound.2 plain.2⟩

end

/-! ## Literals -/

private theorem integerText_chars (value : Int) :
    (integerText value).toList =
      if value < 0 then '-' :: Nat.toDigits 10 value.natAbs else Nat.toDigits 10 value.natAbs := by
  by_cases negative : value < 0 <;> simp [integerText, negative]

private theorem text_chars (proper : Proper (.number value)) :
    value.text.toList = if isSigned value then '-' :: size value else size value := by
  cases value with
  | integer value =>
    simp only [Number.text, integerText_chars, isSigned, size, long_negative_iff, decide_eq_true_eq]
  | float value =>
    rw [Number.text, text_of_finite proper]
    by_cases negative : isNegative value <;> simp [isSigned, size, negative]

private theorem size_negated (proper : Proper (.number value)) : size (negated value) = size value := by
  cases value with
  | integer value => rw [negated, size, size, natAbs_neg]
  | float value => rw [negated, size, size, sizeText_neg proper]

private theorem literalChar_of_digit (digit : Char.isDigit c) : isLiteralChar c := by
  simp [isLiteralChar, digit]

private theorem literalChar_integerText (value : Int) : ∀ c ∈ (integerText value).toList, isLiteralChar c := by
  have digits : ∀ c ∈ Nat.toDigits 10 value.natAbs, isLiteralChar c :=
    fun c member => literalChar_of_digit ((spells_toDigits _).digit c member)
  rw [integerText_chars]
  split
  · exact List.forall_mem_cons.mpr ⟨rfl, digits⟩
  · exact digits

private theorem literalChar_spelling {spelling : Spelling} (float : spelling.IsFloat) :
    ∀ c ∈ spelling.chars, isLiteralChar c := by
  have decimals : ∀ c ∈ spelling.fractionPart, isLiteralChar c := by
    unfold Spelling.fractionPart
    split
    · simp
    · exact List.forall_mem_cons.mpr ⟨rfl, fun c member => literalChar_of_digit (float.fraction c member)⟩
  have power : ∀ c ∈ spelling.powerPart, isLiteralChar c := by
    unfold Spelling.powerPart
    split
    · simp
    · exact List.forall_mem_cons.mpr ⟨rfl, literalChar_integerText _⟩
  simp only [Spelling.chars, List.forall_mem_append]
  exact ⟨fun c member => literalChar_of_digit (float.whole.digit c member), decimals, power⟩

/-- A number without its sign begins with a digit and goes on as a literal does. -/
theorem size_literal (value : Number) :
    (∃ c cs, size value = c :: cs ∧ c.isDigit) ∧ ∀ c ∈ size value, isLiteralChar c := by
  cases value with
  | integer value =>
    have digits := spells_toDigits value.toInt.natAbs
    exact ⟨spells_cons digits, fun c member => literalChar_of_digit (digits.digit c member)⟩
  | float value =>
    obtain ⟨spelling, float, spelled, -⟩ := spelled_size value
    refine ⟨sizeText_cons value, ?_⟩
    rw [size, spelled]
    exact literalChar_spelling float

private theorem readsAtom_size (value : Number) : ReadsAtom (size value) (.literal (size value)) := by
  obtain ⟨⟨c, cs, chars, digit⟩, inside⟩ := size_literal value
  rw [chars] at inside ⊢
  exact readsAtom_literal digit inside

private theorem size_ne_nil (value : Number) : size value ≠ [] := by
  obtain ⟨⟨c, cs, chars, -⟩, -⟩ := size_literal value
  simp [chars]

/-! ## Reading texts back -/

/-- A text is read as a tree, in every place that asks for no more than its strength. -/
structure ReadBack (strength : Nat) (cs : List Char) (tree : Tree) : Prop extends
    layout.ReadBack Ends TextReading.signed strength cs tree where
  atom : 5 ≤ strength → ReadsAtom cs tree

section ReadBack

variable {cs : List Char} {tree : Tree} {strength least : Nat}

private theorem readBack_of_signed (read : ReadsSigned cs tree) (weak : strength < 5) : ReadBack strength cs tree :=
  ⟨Layout.readBack_of_operand read, fun strong => by omega⟩

private theorem readBack_of_atom (read : ReadsAtom cs tree) (some : cs ≠ []) : ReadBack strength cs tree :=
  ⟨Layout.readBack_of_operand (readsSigned_of_atom read some), fun _ => read⟩

/-- What is enclosed is read in the place that it is enclosed for. -/
theorem readBack_enclosed (read : ReadBack strength text.toList tree) (strong : least ≤ precedence → least ≤ strength) :
    ReadBack least ((Text.Operand.mk precedence text).enclosed least).toList tree := by
  unfold Text.Operand.enclosed
  split
  · have chars : ("(" ++ text ++ ")").toList = '(' :: (text.toList ++ [')']) := by simp
    rw [chars]
    exact readBack_of_atom (readsAtom_parenthesized read.whole) (by simp)
  · rename_i enough
    have bound := strong (Nat.le_of_not_lt enough)
    exact ⟨Layout.readBack_of_stronger read.toReadBack bound, fun _ => read.atom (by omega)⟩

end ReadBack

/-- How strongly the text of a formula holds together. The sign of a literal makes it weaker than it is printed as. -/
def strength (formula : Formula) : Nat := if isSignedLiteral formula then 3 else formula.precedence

private theorem le_strength (weak : least ≤ 3) (strong : least ≤ formula.precedence) : least ≤ strength formula := by
  unfold strength
  split <;> assumption

private theorem shape_signed (proper : Proper (.number value)) :
    shape (signed value) = if isSigned value then .unary .minus (.literal (size value)) else .literal (size value) := by
  by_cases negative : isSigned value <;> simp [signed, shape, negative, size_negated proper]

private theorem readBack_number (proper : Proper (.number value)) :
    ReadBack (strength (.number value)) value.text.toList (shape (asRead (.number value))) := by
  rw [text_chars proper, asRead, shape_signed proper]
  by_cases negative : isSigned value
  · simp only [negative, ↓reduceIte, strength, isSignedLiteral]
    exact readBack_of_signed (readsSigned_sign .minus (readsSigned_of_atom (readsAtom_size value) (size_ne_nil value)))
      (by omega)
  · simp only [negative, Bool.false_eq_true, ↓reduceIte]
    exact readBack_of_atom (readsAtom_size value) (size_ne_nil value)

/-- The text of a formula as an operand, in parentheses where it is weaker than its place asks for. -/
def enclosed (least : Nat) (formula : Formula) : List Char :=
  ((Text.Operand.mk formula.precedence formula.text).enclosed least).toList

section Forms

variable {lhs rhs operand base exponent : Formula}

/-- A formula is read back with its signs as they are read. -/
def ReadsBack (formula : Formula) : Prop :=
  ReadBack (strength formula) formula.text.toList (shape (asRead formula))

private theorem readBack_operand (read : ReadsBack operand) (weak : least ≤ 3) :
    ReadBack least (enclosed least operand) (shape (asRead operand)) :=
  readBack_enclosed read (le_strength weak)

theorem readsBack_binary (op : BinaryOp) (left : ReadsBack lhs) (right : ReadsBack rhs) :
    ReadsBack (.binary op lhs rhs) := by
  have strong : (Formula.binary op lhs rhs).precedence = Layout.strengthOf op := by cases op <;> rfl
  have weak : Layout.strengthOf op < 3 := by cases op <;> decide
  have chars : (Formula.binary op lhs rhs).text.toList =
      enclosed (Layout.strengthOf op) lhs ++ (layout.operator op ++ enclosed (Layout.strengthOf op + 1) rhs) := by
    simp [Formula.text, enclosed, layout, strong]
  have held : strength (.binary op lhs rhs) = Layout.strengthOf op := by simp [strength, isSignedLiteral, strong]
  have first := readBack_operand left (by omega : Layout.strengthOf op ≤ 3)
  have second := readBack_operand right (by omega : Layout.strengthOf op + 1 ≤ 3)
  unfold ReadsBack
  rw [chars, held]
  exact ⟨Layout.readBack_operator lawful op first.toReadBack second.toReadBack, fun atom => by omega⟩

private theorem readsBack_unary (op : UnaryOp) (inside : ReadsBack operand) : ReadsBack (.unary op operand) := by
  have read := (readBack_operand inside (Nat.le_refl 3)).alone (Nat.le_refl 3)
  have chars : (Formula.unary op operand).text.toList = op.symbol.toList ++ enclosed 3 operand := by
    simp [Formula.text, enclosed]
  have weak : strength (.unary op operand) < 5 := by simp [strength, isSignedLiteral, Formula.precedence]
  unfold ReadsBack
  rw [chars]
  exact readBack_of_signed (readsSigned_sign op read) weak

/-- A formula is a literal with a sign, or is as strong as it is printed. -/
theorem signedLiteral_cases (formula : Formula) :
    (∃ value, formula = .number value ∧ isSigned value) ∨
      isSignedLiteral formula = false ∧ strength formula = formula.precedence := by
  cases signed : isSignedLiteral formula with
  | false => exact .inr ⟨rfl, by simp [strength, signed]⟩
  | true =>
    cases formula <;> simp only [isSignedLiteral, Bool.false_eq_true] at signed
    exact .inl ⟨_, rfl, signed⟩

/-- Behind a minus sign, only the size of a literal is printed. -/
theorem enclosed_signed (proper : Proper (.number value)) (negative : isSigned value) :
    enclosed 5 (.number value) = '-' :: size value := by
  have chars := text_chars proper
  rw [negative, if_pos rfl] at chars
  simpa [enclosed, Text.Operand.enclosed, Formula.precedence, Formula.text] using chars

private theorem readsAtom_enclosed (read : ReadsBack operand) (strong : strength operand = operand.precedence) :
    ReadsAtom (enclosed 5 operand) (shape (asRead operand)) :=
  (readBack_enclosed read (by rw [strong]; exact id)).atom (Nat.le_refl 5)

private theorem readsExponent_enclosed (printable : Printable exponent) (read : ReadsBack exponent) :
    ReadsExponent (enclosed 5 exponent) (shape (asRead exponent)) := by
  rcases signedLiteral_cases exponent with ⟨value, rfl, negative⟩ | ⟨-, strong⟩
  · cases printable with
    | number proper =>
      rw [enclosed_signed proper negative, asRead, shape_signed proper, if_pos negative]
      exact readsExponent_minus (readsAtom_size value)
  · exact readsExponent_of_atom (readsAtom_enclosed read strong)

private theorem readsBack_power (below : Printable base) (readBase : ReadsBack base)
    (readExponent : ReadsExponent (enclosed 5 exponent) (shape (asRead exponent))) :
    ReadsBack (.call "pow" [base, exponent]) := by
  have chars : (Formula.call "pow" [base, exponent]).text.toList = enclosed 5 base ++ '^' :: enclosed 5 exponent := by
    simp [Formula.text, Formula.operands, Formula.callText, enclosed]
  have weak : strength (.call "pow" [base, exponent]) < 5 := by simp [strength, isSignedLiteral, Formula.precedence]
  unfold ReadsBack
  rw [chars]
  apply readBack_of_signed _ weak
  rcases signedLiteral_cases base with ⟨value, rfl, negative⟩ | ⟨unsigned, strong⟩
  · cases below with
    | number proper =>
      -- The sign of the base is the first character, and what follows it is a power on its own.
      have tree : shape (asRead (.call "pow" [.number value, exponent])) =
          .unary .minus (.call "pow".toList [.literal (size value), shape (asRead exponent)]) := by
        simp [asRead, allAsRead, hasSignedBase, isSignedLiteral, negative, signed, signInFront, shape, shapes,
          size_negated proper]
      rw [enclosed_signed proper negative, tree]
      exact readsSigned_sign .minus (readsSigned_power (readsAtom_size value) readExponent)
  · have tree : shape (asRead (.call "pow" [base, exponent])) =
        .call "pow".toList [shape (asRead base), shape (asRead exponent)] := by
      simp [asRead, allAsRead, hasSignedBase, unsigned, shape, shapes]
    rw [tree]
    exact readsSigned_power (readsAtom_enclosed readBase strong) readExponent

theorem readsBack_call {arguments : List Formula} (letters : Letters name.toList) (other : name ≠ "pow")
    (each : ∀ argument ∈ arguments, ReadsBack argument) : ReadsBack (.call name arguments) := by
  have chars : (Formula.call name arguments).text.toList =
      name.toList ++ '(' :: ((String.intercalate ", " (arguments.map Formula.text)).toList ++ [')']) := by
    rw [Formula.text, Formula.callText]
    · simp [operands_eq_map, Function.comp_def]
    · exact fun base exponent power => absurd power other
  have tree : shape (asRead (.call name arguments)) =
      .call name.toList (arguments.map fun argument => shape (asRead argument)) := by
    simp [asRead, hasSignedBase, other, shape, shapes_eq_map, allAsRead_eq_map]
  have items : OpenSums (arguments.map Formula.text) (arguments.map fun argument => shape (asRead argument)) := by
    simp only [OpenSums, List.forall₂_map_left_iff, List.forall₂_map_right_iff]
    exact List.forall₂_same.mpr fun argument member => (each argument member).whole
  unfold ReadsBack
  rw [chars, tree]
  exact readBack_of_atom (readsAtom_call letters items) (by simp)

end Forms

/-- The text of a formula is read back with the signs as they are read. -/
theorem readsBack_printable (printable : Printable formula) : ReadsBack formula := by
  induction printable with
  | number proper => exact readBack_number proper
  | identifier letters => exact readBack_of_atom (readsAtom_name letters) letters.some
  | binary left right readLeft readRight => exact readsBack_binary _ readLeft readRight
  | unary inside read => exact readsBack_unary _ read
  | power below above readBase readExponent =>
    exact readsBack_power below readBase (readsExponent_enclosed above readExponent)
  | call letters other each read => exact readsBack_call letters other read

/-! ## Trees and formulas -/

/-- Numbers without a sign. The least integer is its own negation and stands for a size that no other integer has. -/
def Unmarked : Number → Prop
  | .integer value => isUnsigned (.long value)
  | .float value => isUnsigned (.double value)

/-- Formulas whose literals have no signs. -/
inductive Unsigned : Formula → Prop where
  | number (unmarked : Unmarked value) : Unsigned (.number value)
  | identifier : Unsigned (.identifier name)
  | binary (left : Unsigned lhs) (right : Unsigned rhs) : Unsigned (.binary op lhs rhs)
  | unary (inside : Unsigned operand) : Unsigned (.unary op operand)
  | call {arguments : List Formula} (each : ∀ argument ∈ arguments, Unsigned argument) :
      Unsigned (.call name arguments)

variable {arguments others : List Formula}

private theorem unsigned_signed (proper : Proper (.number value)) : Unsigned (signed value) := by
  unfold signed
  cases value with
  | integer value =>
    by_cases negative : value.toInt < 0
    · have unmarked : Unmarked (.integer (-value)) := neg_unsigned negative
      simp only [isSigned, long_negative_iff, negative, decide_true, ↓reduceIte]
      exact .unary (.number unmarked)
    · have unmarked : Unmarked (.integer value) := (long_unsigned_iff value).mpr (.inl (Int.not_lt.mp negative))
      simp only [isSigned, long_negative_iff, negative, decide_false, Bool.false_eq_true, ↓reduceIte]
      exact .number unmarked
  | float value =>
    by_cases negative : isNegative value
    · have unmarked : Unmarked (.float (-value)) := by
        simp [Unmarked, isUnsigned, isFinite_neg proper, isNegative_neg proper, negative]
      simp only [isSigned, negative, ↓reduceIte]
      exact .unary (.number unmarked)
    · have finite : value.isFinite := proper
      have unmarked : Unmarked (.float value) := by simp [Unmarked, isUnsigned, finite, negative]
      simp only [isSigned, negative, Bool.false_eq_true, ↓reduceIte]
      exact .number unmarked

/-- Moving the sign of the base in front of a power adds no sign to a literal. -/
theorem unsigned_signInFront (each : ∀ argument ∈ arguments, Unsigned argument) : Unsigned (signInFront arguments) := by
  unfold signInFront
  split
  · rw [List.forall_mem_cons] at each
    cases each.1 with
    | unary inside => exact .unary (.call (List.forall_mem_cons.mpr ⟨inside, each.2⟩))
  · exact .call each

private theorem unsigned_call (each : ∀ argument ∈ arguments, Unsigned (asRead argument)) (name : String) :
    Unsigned (asRead (.call name arguments)) := by
  have read : ∀ argument ∈ allAsRead arguments, Unsigned argument := by
    rw [allAsRead_eq_map]
    exact List.forall_mem_map.mpr each
  rw [asRead]
  split
  · exact unsigned_signInFront read
  · exact .call read

private theorem asRead_unsigned (printable : Printable formula) : Unsigned (asRead formula) := by
  induction printable with
  | number proper => exact unsigned_signed proper
  | identifier letters => exact .identifier
  | binary left right unsignedLeft unsignedRight => exact .binary unsignedLeft unsignedRight
  | unary inside unsigned => exact .unary unsigned
  | power below above unsignedBase unsignedExponent =>
    exact unsigned_call (by simp [unsignedBase, unsignedExponent]) "pow"
  | call letters other each unsigned => exact unsigned_call unsigned _

/-- Only floats have a point or an exponent. -/
theorem size_integer_ne_float (value : Int64) (float : Float) : size (.integer value) ≠ size (.float float) := by
  obtain ⟨spelling, isFloat, spelled, -⟩ := spelled_size float
  have digits := (spells_toDigits value.toInt.natAbs).digit
  intro same
  change Nat.toDigits 10 value.toInt.natAbs = (sizeText float).toList at same
  rw [same, spelled] at digits
  simp only [Spelling.chars, List.forall_mem_append] at digits
  obtain ⟨-, decimals, power⟩ := digits
  rcases isFloat.float with some | some
  · simp [Spelling.fractionPart, some] at decimals
  · obtain ⟨exponent, is⟩ := Option.isSome_iff_exists.mp some
    simp [Spelling.powerPart, is] at power

/-- Numbers without signs are told apart by their texts. -/
theorem eq_of_size (unmarked : Unmarked value) (unmarked' : Unmarked other) (same : size value = size other) :
    value = other := by
  cases value with
  | integer value =>
    cases other with
    | integer other =>
      have sizes : value.toInt.natAbs = other.toInt.natAbs := by
        have read := congrArg (Nat.ofDigitChars 10 · 0) same
        simpa [size, Nat.ofDigitChars_ten_toDigits] using read
      rw [long_of_size unmarked unmarked' sizes]
    | float other => exact absurd same (size_integer_ne_float _ _)
  | float value =>
    cases other with
    | integer other => exact absurd same.symm (size_integer_ne_float _ _)
    | float other =>
      simp only [Unmarked, isUnsigned, Bool.and_eq_true, Bool.not_eq_true'] at unmarked unmarked'
      have sizes : sizeText value = sizeText other := String.toList_inj.mp same
      rw [eq_of_sizeText (by rw [unmarked.2, unmarked'.2]) sizes]

theorem eq_of_shapes
    (each : ∀ argument ∈ arguments, ∀ other, Unsigned other → shape argument = shape other → argument = other)
    (unsigned : ∀ other ∈ others, Unsigned other) (same : shapes arguments = shapes others) : arguments = others := by
  induction arguments generalizing others with
  | nil =>
    cases others <;> simp only [shapes, reduceCtorEq] at same
    rfl
  | cons argument arguments ih =>
    cases others <;> simp only [shapes, reduceCtorEq, List.cons.injEq] at same
    rw [List.forall_mem_cons] at each unsigned
    rw [each.1 _ unsigned.1 same.1, ih each.2 unsigned.2 same.2]

/-- The tree tells the formula. -/
theorem eq_of_shape (unsigned : Unsigned formula) (other : Formula) (unsigned' : Unsigned other)
    (same : shape formula = shape other) : formula = other := by
  induction unsigned generalizing other with
  | number unmarked =>
    cases unsigned' <;> simp only [shape, reduceCtorEq, Tree.literal.injEq] at same
    rename_i unmarked'
    rw [eq_of_size unmarked unmarked' same]
  | identifier =>
    cases unsigned' <;> simp only [shape, reduceCtorEq, Tree.name.injEq] at same
    rw [String.toList_inj.mp same]
  | binary left right sameLeft sameRight =>
    cases unsigned' <;> simp only [shape, reduceCtorEq, Tree.binary.injEq] at same
    rename_i left' right'
    rw [same.1, sameLeft _ left' same.2.1, sameRight _ right' same.2.2]
  | unary inside sameInside =>
    cases unsigned' <;> simp only [shape, reduceCtorEq, Tree.unary.injEq] at same
    rename_i inside'
    rw [same.1, sameInside _ inside' same.2]
  | call each sameEach =>
    cases unsigned' <;> simp only [shape, reduceCtorEq, Tree.call.injEq] at same
    rename_i each'
    rw [String.toList_inj.mp same.1, eq_of_shapes sameEach each' same.2]

/-! ## Formulas with one text -/

@[simp]
theorem clear_number (value : Number) : Clear (.number value) := by
  simp [Clear, Formula.preorder]

@[simp]
theorem clear_identifier (name : String) : Clear (.identifier name) := by
  simp [Clear, Formula.preorder]

@[simp]
theorem clear_binary : Clear (.binary op lhs rhs) ↔ Clear lhs ∧ Clear rhs := by
  simp [Clear, Formula.preorder, or_imp, forall_and]

@[simp]
theorem clear_unary : Clear (.unary op operand) ↔ Clear operand := by
  simp [Clear, Formula.preorder]

@[simp]
theorem clear_call :
    Clear (.call name arguments) ↔ hasSignedBase name arguments = false ∧ ∀ argument ∈ arguments, Clear argument := by
  simp only [Clear, Formula.preorder, List.mem_cons, Formula.call.injEq, mem_preorderList]
  grind

private theorem asRead_call (unsigned : hasSignedBase name arguments = false)
    (each : ∀ argument ∈ arguments, asRead argument = unfolded argument) :
    asRead (.call name arguments) = unfolded (.call name arguments) := by
  rw [asRead, unsigned, unfolded, allAsRead_eq_map, allUnfolded_eq_map, List.map_congr_left each]
  rfl

/-- Where no power has a negative literal as its base, every sign is read in front of its literal. -/
theorem asRead_of_clear (printable : Printable formula) (clear : Clear formula) :
    asRead formula = unfolded formula := by
  induction printable with
  | number | identifier => rfl
  | binary left right sameLeft sameRight =>
    rw [clear_binary] at clear
    rw [asRead, unfolded, sameLeft clear.1, sameRight clear.2]
  | unary inside same =>
    rw [clear_unary] at clear
    rw [asRead, unfolded, same clear]
  | power below above sameBase sameExponent =>
    rw [clear_call] at clear
    obtain ⟨unsigned, each⟩ := clear
    refine asRead_call unsigned ?_
    simp [sameBase (each _ (by simp)), sameExponent (each _ (by simp))]
  | call letters other each same =>
    rw [clear_call] at clear
    exact asRead_call clear.1 fun argument member => same argument member (clear.2 argument member)

/-- **Formulas with one text are read alike.** They are equal once the sign of every negative literal is taken as their
text has it; and if no power has a negative literal as its base, they are equal once every such sign is taken as a
minus sign in front of the literal. -/
theorem equal_texts_are_read_alike (formula other : Formula) (sound : Sound formula) (sound' : Sound other)
    (plain : Plain formula) (plain' : Plain other) (same : formula.text = other.text) :
    asRead formula = asRead other ∧ (Clear formula → Clear other → unfolded formula = unfolded other) := by
  have printable := printable_of_sound formula sound plain
  have printable' := printable_of_sound other sound' plain'
  have read := read?_of_opensSum (readsBack_printable printable).whole
  have read' := read?_of_opensSum (readsBack_printable printable').whole
  rw [same, read'] at read
  have alike : asRead formula = asRead other :=
    eq_of_shape (asRead_unsigned printable) _ (asRead_unsigned printable') (Option.some.inj read).symm
  refine ⟨alike, fun clear clear' => ?_⟩
  rw [← asRead_of_clear printable clear, ← asRead_of_clear printable' clear', alike]

/-- A difference with a factor in its first operand and a power with a negative exponent as its second. -/
def differenceWith (factor : Formula) : Formula :=
  .binary .sub (.binary .mul (.number (.integer 2)) factor)
    (.call "pow" [.call "f" [.identifier "x"], .number (.float (-0.5))])

example : (differenceWith (.number (.integer (-3)))).text = "2 * -3 - f(x)^-0.5" := by decide +kernel

/-- A negative factor and the negation of a factor are printed alike. -/
theorem negative_factor_is_negated_factor :
    (differenceWith (.number (.integer (-3)))).text = (differenceWith (.unary .minus (.number (.integer 3)))).text ∧
      unfolded (differenceWith (.number (.integer (-3)))) =
        unfolded (differenceWith (.unary .minus (.number (.integer 3)))) := by
  have finite : Float.isFinite (-0.5) := by decide
  have sound : Sound (differenceWith (.number (.integer (-3)))) ∧
      Sound (differenceWith (.unary .minus (.number (.integer 3)))) := by
    simp [differenceWith, Sound, Formula.preorder, Formula.preorderList, Proper, Builtin.ofName?, Builtin.arity, finite]
  have plain : Plain (differenceWith (.number (.integer (-3)))) ∧
      Plain (differenceWith (.unary .minus (.number (.integer 3)))) := by
    simp [differenceWith, Plain, Formula.preorder, Formula.preorderList, Lettered, letters_iff]
  have clear : Clear (differenceWith (.number (.integer (-3)))) ∧
      Clear (differenceWith (.unary .minus (.number (.integer 3)))) := by
    simp [differenceWith, hasSignedBase, isSignedLiteral]
  have same : (differenceWith (.number (.integer (-3)))).text =
      (differenceWith (.unary .minus (.number (.integer 3)))).text := by decide +kernel
  exact ⟨same, (equal_texts_are_read_alike _ _ sound.1 sound.2 plain.1 plain.2 same).2 clear.1 clear.2⟩

/-- A power of a negative literal, and the negation of a power. -/
def signsAndPowers : String :=
  "<doc><math><msup><mn>-2</mn><mn>2</mn></msup></math>" ++
    "<math><mo>-</mo><msup><mn>2</mn><mn>2</mn></msup></math></doc>"

/-- A power of a negative literal is printed as the negation of a power. -/
theorem negative_base_reads_as_negated_power :
    ∃ power negation, Sheet.ofText false signsAndPowers = .ok ⟨[⟨power, some 1⟩, ⟨negation, some 1⟩], []⟩ ∧
      Sound power ∧ Sound negation ∧ Plain power ∧ Plain negation ∧
      power.text = negation.text ∧ unfolded power ≠ unfolded negation := by
  refine ⟨.call "pow" [.number (.integer (-2)), .number (.integer 2)],
    .unary .minus (.call "pow" [.number (.integer 2), .number (.integer 2)]), ?_, ?_, ?_, ?_, ?_, ?_, ?_⟩
  · cbv
  · simp [Sound, Formula.preorder, Formula.preorderList, Proper, Builtin.ofName?, Builtin.arity]
  · simp [Sound, Formula.preorder, Formula.preorderList, Proper, Builtin.ofName?, Builtin.arity]
  · simp [Plain, Formula.preorder, Formula.preorderList, Lettered, letters_iff]
  · simp [Plain, Formula.preorder, Formula.preorderList, Lettered, letters_iff]
  · decide +kernel
  · simp [unfolded]

end FormulaSheet.UnambiguousTexts
