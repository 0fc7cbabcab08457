import FormulaSheet.Proofs.SourceScanning

/-! The text of an expression, read by the rules of its language, is that expression again. The only difference is
that a negative literal comes back as the negation of a literal. Both languages read the same tree, and the tree tells
the expression. -/
namespace FormulaSheet.EmittedExpressions
open Target SourceExpressions SourceScanning DecimalLiterals FloatParts Decimal

/-! ## Expressions and their trees -/

def dialectOf : Language → Dialect
  | .csharp => CSharp.dialect
  | .visualBasic => VisualBasic.dialect

mutual

/-- Expressions whose text is meant to be read back: the numbers are finite, the strings have one line, the names are
plain, and casts go to double. -/
def isWritable : Expr → Bool
  | .long _ | .pi => true
  | .double value => value.isFinite
  | .string text => text.toList.all (!endsLine ·)
  | .variable name => isPlainName name
  | .binary _ lhs rhs => isWritable lhs && isWritable rhs
  | .neg operand => isWritable operand
  | .cast ty operand => ty = .double && isWritable operand
  | .call callee arguments => isPlainCallee callee && areWritable arguments

def areWritable : List Expr → Bool
  | [] => true
  | expr :: rest => isWritable expr && areWritable rest

end

mutual

/-- The expression with the sign of each negative literal as a negation of its own. -/
def unfolded : Expr → Expr
  | .long value => if value < 0 then .neg (.long (-value)) else .long value
  | .double value => if isNegative value then .neg (.double (-value)) else .double value
  | .binary op lhs rhs => .binary op (unfolded lhs) (unfolded rhs)
  | .neg operand => .neg (unfolded operand)
  | .cast ty operand => .cast ty (unfolded operand)
  | .call callee arguments => .call callee (allUnfolded arguments)
  | .string text => .string text
  | .variable name => .variable name
  | .pi => .pi

def allUnfolded : List Expr → List Expr
  | [] => []
  | expr :: rest => unfolded expr :: allUnfolded rest

end

mutual

/-- The tree of an expression without negative literals. The negation of the least long wraps around to itself, so the
size of a long is what counts. -/
def shape : Expr → Tree
  | .long value => .whole value.toInt.natAbs
  | .double value => .decimal (literal.text value)
  | .string text => .string text
  | .variable name => .name name
  | .pi => .pi
  | .binary op lhs rhs => .binary op (shape lhs) (shape rhs)
  | .neg operand => .neg (shape operand)
  | .cast _ operand => .toDouble (shape operand)
  | .call callee arguments => .call callee (shapes arguments)

def shapes : List Expr → List Tree
  | [] => []
  | expr :: rest => shape expr :: shapes rest

end

/-! ## Signs of literals -/

theorem long_negative_iff (value : Int64) : value < 0 ↔ value.toInt < 0 := by
  rw [Int64.lt_iff_toInt_lt, Int64.toInt_zero]

/-- The least long has no positive counterpart, but its size is written as that of any other. -/
theorem natAbs_neg (value : Int64) : (-value).toInt.natAbs = value.toInt.natAbs := by
  have least := Int64.le_toInt value
  have most := Int64.toInt_lt value
  rw [Int64.toInt_neg, Int.bmod_def]
  omega

private theorem literal_unsigned (finite : Float.isFinite x) (unsigned : isNegative x = false) :
    literal.text x = sizeText x := by
  simp [text_of_finite finite, unsigned]

private theorem literal_neg (finite : Float.isFinite x) (signed : isNegative x) : literal.text (-x) = sizeText x := by
  have unsigned : isNegative (-x) = false := by simp [isNegative_neg finite, signed]
  rw [literal_unsigned (isFinite_neg finite) unsigned, sizeText_neg finite]

private theorem strength_shape (expr : Expr) : (shape (unfolded expr)).strength = expr.strength := by
  cases expr with
  | long value =>
    by_cases negative : value < 0 <;> simp [unfolded, shape, Tree.strength, Expr.strength, negative]
  | double value =>
    by_cases negative : isNegative value <;> simp [unfolded, shape, Tree.strength, Expr.strength, negative]
  | binary op lhs rhs => cases op <;> rfl
  | _ => rfl

/-! ## Words -/

private theorem word_of_plain (plain : isPlainName name) : isWord name := by
  simp only [isPlainName, Bool.and_eq_true] at plain
  exact plain.1.1.1

private theorem word_cons (word : isWord name) :
    ∃ c cs, name.toList = c :: cs ∧ isWordChar c ∧ c.isDigit = false ∧ ∀ d ∈ cs, isWordChar d := by
  simp only [isWord, Bool.and_eq_true, List.all_eq_true, Bool.not_eq_true'] at word
  obtain ⟨⟨some, inside⟩, start⟩ := word
  cases chars : name.toList with
  | nil =>
    rw [String.toList_eq_nil_iff] at chars
    simp [chars] at some
  | cons c cs =>
    rw [chars] at inside start
    obtain ⟨first, others⟩ := List.forall_mem_cons.mp inside
    exact ⟨c, cs, rfl, first, start, others⟩

private theorem goes_name (word : isWord name) (stop : ∀ d ∈ rest.head?, isWordChar d = false) :
    Goes language (name.toList ++ rest) [.word name] rest := by
  obtain ⟨c, cs, chars, first, notDigit, others⟩ := word_cons word
  have goes : Goes language (c :: cs ++ rest) [.word (String.ofList (c :: cs))] rest :=
    goes_word first notDigit others stop
  rwa [← chars, String.ofList_toList] at goes

/-- A member of the library behind its owner. -/
theorem goes_member (word : isWord name) (stop : ∀ d ∈ rest.head?, isWordChar d = false) :
    Goes language (("Math." ++ name).toList ++ rest) [.word "Math", .dot, .word name] rest := by
  have chars : ("Math." ++ name).toList ++ rest = "Math".toList ++ '.' :: (name.toList ++ rest) := by simp
  have owner : Goes language ("Math".toList ++ '.' :: (name.toList ++ rest)) [.word "Math"]
      ('.' :: (name.toList ++ rest)) := goes_name (by decide) (by simp [isWordChar])
  rw [chars]
  exact goes_trans owner (goes_trans (goes_mark '.' rfl (by decide)) (goes_name word stop))

private theorem helper_word (helper : Helper) : isWord helper.name := by
  cases helper <;> decide

private theorem math_word (function : MathFunction) : isWord function.name := by
  cases function <;> decide

private theorem goes_callee (plain : isPlainCallee callee) (rest : List Char) :
    Goes language (callee.text.toList ++ '(' :: rest) (calleeTokens callee) ('(' :: rest) := by
  have stop : ∀ d ∈ ('(' :: rest).head?, isWordChar d = false := by simp [isWordChar]
  cases callee with
  | math function => exact goes_member (math_word function) stop
  | helper helper => exact goes_name (helper_word helper) stop
  | user name => exact goes_name (word_of_plain plain) stop

/-! ## Literals -/

private theorem goes_whole (value : Nat) (rest : List Char) :
    Goes language (Nat.toDigits 10 value ++ 'L' :: rest) [.whole value] rest := by
  obtain ⟨c, cs, chars, digit⟩ := spells_cons (spells_toDigits value)
  have read := number?_whole value rest
  rw [chars] at read ⊢
  exact goes_number digit read

theorem sizeText_cons (x : Float) : ∃ c cs, (sizeText x).toList = c :: cs ∧ c.isDigit := by
  obtain ⟨spelling, float, spelled, -⟩ := spelled_size x
  obtain ⟨c, cs, whole, digit⟩ := spells_cons float.whole
  exact ⟨c, _, by rw [spelled, Spelling.chars, whole, List.cons_append], digit⟩

private theorem goes_size (x : Float) (stops : Stops rest) :
    Goes language ((sizeText x).toList ++ rest) [.decimal (sizeText x)] rest := by
  obtain ⟨c, cs, chars, digit⟩ := sizeText_cons x
  obtain ⟨spelling, float, spelled, -⟩ := spelled_size x
  have read := number?_spelling float stops
  rw [← spelled, String.ofList_toList] at read
  rw [chars] at read ⊢
  exact goes_number digit read

private theorem string_literal (language : Language) (text : String) (oneLine : ∀ c ∈ text.toList, endsLine c = false)
    (stops : Stops rest) :
    ∃ cs, ((dialectOf language).string text).toList ++ rest = '"' :: cs ∧
      string? language cs = some (text.toList, rest) := by
  cases language with
  | csharp =>
    refine ⟨text.toList.flatMap CSharp.literalChar ++ '"' :: rest, ?_, escapedString?_literal _ _⟩
    simp [dialectOf, CSharp.dialect, CSharp.stringLiteral]
  | visualBasic =>
    have stop : rest.head? ≠ some '"' := fun quote => (stops '"' quote).2.2 rfl
    refine ⟨_, ?_, doubledString?_literal text.toList oneLine stop⟩
    simp [dialectOf, VisualBasic.dialect, VisualBasic.stringLiteral, textLines_single oneLine, VisualBasic.quotedLine]

/-! ## First characters -/

private theorem not_minus_of_digit (digit : Char.isDigit c) : c ≠ '-' := by
  rintro rfl
  simp at digit

private theorem not_minus_of_word (word : isWordChar c) : c ≠ '-' := by
  rintro rfl
  simp [isWordChar] at word

private theorem callee_head (plain : isPlainCallee callee) (rest : List Char) :
    (callee.text.toList ++ rest).head? ≠ some '-' := by
  have named {name : String} (word : isWord name) : (name.toList ++ rest).head? ≠ some '-' := by
    obtain ⟨c, cs, chars, first, -⟩ := word_cons word
    simp [chars, not_minus_of_word first]
  cases callee with
  | math function => simp [Callee.text]
  | helper helper => exact named (helper_word helper)
  | user name => exact named (word_of_plain plain)

/-- An expression that needs no parentheses behind a minus sign does not begin with one. -/
theorem text_head (language : Language) (expr : Expr) (writable : isWritable expr) (strong : 4 ≤ expr.strength)
    (stops : Stops rest) : ((expr.text (dialectOf language)).toList ++ rest).head? ≠ some '-' := by
  cases expr with
  | long value =>
    have unsigned : ¬ value.toInt < 0 := by
      intro negative
      simp [Expr.strength, long_negative_iff, negative] at strong
    obtain ⟨c, cs, chars, digit⟩ := spells_cons (spells_toDigits value.toInt.natAbs)
    simp [Expr.text, integerText, unsigned, chars, not_minus_of_digit digit]
  | double value =>
    have unsigned : isNegative value = false := by
      by_contra negative
      simp [Expr.strength, Bool.eq_true_of_not_eq_false negative] at strong
    obtain ⟨c, cs, chars, digit⟩ := sizeText_cons value
    simp [Expr.text, literal_unsigned writable unsigned, chars, not_minus_of_digit digit]
  | string text =>
    have oneLine : ∀ c ∈ text.toList, endsLine c = false := by simpa [isWritable] using writable
    obtain ⟨cs, chars, -⟩ := string_literal language text oneLine stops
    simp [Expr.text, chars]
  | «variable» name =>
    obtain ⟨c, cs, chars, first, -⟩ := word_cons (word_of_plain writable)
    simp [Expr.text, chars, not_minus_of_word first]
  | pi => simp [Expr.text]
  | binary op lhs rhs => cases op <;> simp [Expr.strength] at strong
  | neg operand => simp [Expr.strength] at strong
  | cast ty operand =>
    simp only [isWritable, Bool.and_eq_true, decide_eq_true_eq] at writable
    cases language with
    | csharp => simp [Expr.text, dialectOf, CSharp.dialect]
    | visualBasic => simp [Expr.text, dialectOf, VisualBasic.dialect, writable.1]
  | call callee arguments =>
    simp only [isWritable, Bool.and_eq_true] at writable
    simp only [Expr.text, String.toList_append, List.append_assoc]
    exact callee_head writable.1 _

private theorem enclosed_head (language : Language) (expr : Expr) (writable : isWritable expr) (stops : Stops rest) :
    (((Text.Operand.mk expr.strength (expr.text (dialectOf language))).enclosed 4).toList ++ rest).head? ≠
      some '-' := by
  unfold Text.Operand.enclosed
  split
  · simp
  · rename_i strong
    exact text_head language expr writable (Nat.le_of_not_lt strong) stops

/-! ## Texts and tokens -/

private theorem goes_parenthesized (inside : ∀ rest, Stops rest → Goes language (cs ++ rest) tokens rest)
    (rest : List Char) :
    Goes language ('(' :: (cs ++ ')' :: rest)) (.left :: (tokens ++ [.right])) rest := by
  have stops : Stops (')' :: rest) := by simp [Stops, isWordChar]
  exact goes_trans (goes_mark '(' rfl (by decide)) (goes_trans (inside _ stops) (goes_mark ')' rfl (by decide)))

/-- What is enclosed as text is enclosed as tokens. -/
theorem goes_enclosed (goes : ∀ rest, Stops rest → Goes language (text.toList ++ rest) tokens rest)
    (least strength : Nat) (stops : Stops rest) :
    Goes language (((Text.Operand.mk strength text).enclosed least).toList ++ rest) (enclosed least strength tokens)
      rest := by
  unfold Text.Operand.enclosed enclosed
  by_cases weak : strength < least
  · have chars : ("(" ++ text ++ ")").toList ++ rest = '(' :: (text.toList ++ ')' :: rest) := by simp
    simp only [weak, ↓reduceIte, chars]
    exact goes_parenthesized goes rest
  · simp only [weak, ↓reduceIte]
    exact goes rest stops

private theorem goes_operator (op : BinaryOp) (rest : List Char) :
    Goes language (' ' :: (op.symbol.toList ++ ' ' :: rest)) [.operator op] rest := by
  have space (rest : List Char) : Goes language (' ' :: rest) [] rest := goes_mark ' ' rfl (by decide)
  have symbol : Goes language (op.symbol.toList ++ ' ' :: rest) [.operator op] (' ' :: rest) := by
    cases op with
    | sub => exact goes_minus (by simp)
    | add | mul | div => exact goes_mark _ rfl (by decide)
  exact goes_trans (space _) (goes_trans symbol (space _))

private theorem goes_binary {left right : String} (op : BinaryOp)
    (first : ∀ rest, Stops rest → Goes language (left.toList ++ rest) leftTokens rest)
    (second : Goes language (right.toList ++ rest) rightTokens rest) :
    Goes language ((left ++ " " ++ op.symbol ++ " " ++ right).toList ++ rest)
      (leftTokens ++ .operator op :: rightTokens) rest := by
  have chars : (left ++ " " ++ op.symbol ++ " " ++ right).toList ++ rest =
      left.toList ++ ' ' :: (op.symbol.toList ++ ' ' :: (right.toList ++ rest)) := by simp
  rw [chars]
  apply goes_trans (first _ (by simp [Stops, isWordChar]))
  exact goes_trans (goes_operator op _) second

private theorem goes_comma {text others : String}
    (first : ∀ rest, Stops rest → Goes language (text.toList ++ rest) tokens rest)
    (later : Goes language (others.toList ++ rest) moreTokens rest) :
    Goes language ((text ++ ", " ++ others).toList ++ rest) (tokens ++ .comma :: moreTokens) rest := by
  have chars : (text ++ ", " ++ others).toList ++ rest = text.toList ++ ',' :: ' ' :: (others.toList ++ rest) := by simp
  rw [chars]
  apply goes_trans (first _ (by simp [Stops, isWordChar]))
  exact goes_trans (goes_mark ',' rfl (by decide)) (goes_trans (goes_mark ' ' rfl (by decide)) later)

private theorem goes_prefix_cast (operand : Text.Operand)
    (goes : Goes .csharp ((operand.enclosed 4).toList ++ rest) tokens rest) :
    Goes .csharp ((CSharp.dialect.cast .double operand).toList ++ rest) (.left :: .word "double" :: .right :: tokens)
      rest := by
  have type : ∀ rest, Stops rest → Goes .csharp ("double".toList ++ rest) [.word "double"] rest :=
    fun rest stops => goes_name (by decide) fun d next => (stops d next).1
  have chars : (CSharp.dialect.cast .double operand).toList ++ rest =
      '(' :: ("double".toList ++ ')' :: ((operand.enclosed 4).toList ++ rest)) := by
    simp [CSharp.dialect, CSharp.typeName]
  rw [chars]
  exact goes_trans (goes_parenthesized type _) goes

private theorem goes_call_cast (operand : Text.Operand)
    (goes : ∀ rest, Stops rest → Goes .visualBasic (operand.text.toList ++ rest) tokens rest) (rest : List Char) :
    Goes .visualBasic ((VisualBasic.dialect.cast .double operand).toList ++ rest)
      (.word "CDbl" :: .left :: (tokens ++ [.right])) rest := by
  have chars : (VisualBasic.dialect.cast .double operand).toList ++ rest =
      "CDbl".toList ++ '(' :: (operand.text.toList ++ ')' :: rest) := by
    simp [VisualBasic.dialect]
  have name : Goes .visualBasic ("CDbl".toList ++ '(' :: (operand.text.toList ++ ')' :: rest)) [.word "CDbl"]
      ('(' :: (operand.text.toList ++ ')' :: rest)) := goes_name (by decide) (by simp [isWordChar])
  rw [chars]
  exact goes_trans name (goes_parenthesized goes rest)

private theorem goes_long (value : Int64) (rest : List Char) :
    Goes language ((integerText value.toInt ++ "L").toList ++ rest) ((shape (unfolded (.long value))).tokens language)
      rest := by
  by_cases negative : value.toInt < 0
  · obtain ⟨c, cs, digits, digit⟩ := spells_cons (spells_toDigits value.toInt.natAbs)
    have chars : (integerText value.toInt ++ "L").toList ++ rest =
        '-' :: (Nat.toDigits 10 value.toInt.natAbs ++ 'L' :: rest) := by simp [integerText, negative]
    have tree : shape (unfolded (.long value)) = .neg (.whole value.toInt.natAbs) := by
      simp only [unfolded, shape, long_negative_iff, negative, ↓reduceIte, natAbs_neg]
    have single : (Nat.toDigits 10 value.toInt.natAbs ++ 'L' :: rest).head? ≠ some '-' := by
      simp [digits, not_minus_of_digit digit]
    rw [chars, tree]
    exact goes_trans (goes_minus single) (goes_whole _ rest)
  · have chars : (integerText value.toInt ++ "L").toList ++ rest =
        Nat.toDigits 10 value.toInt.natAbs ++ 'L' :: rest := by simp [integerText, negative]
    have tree : shape (unfolded (.long value)) = .whole value.toInt.natAbs := by
      simp [unfolded, shape, long_negative_iff, negative]
    rw [chars, tree]
    exact goes_whole _ rest

private theorem goes_double (finite : value.isFinite) (stops : Stops rest) :
    Goes language ((literal.text value).toList ++ rest) ((shape (unfolded (.double value))).tokens language)
      rest := by
  by_cases negative : isNegative value
  · obtain ⟨c, cs, digits, digit⟩ := sizeText_cons value
    have chars : (literal.text value).toList ++ rest = '-' :: ((sizeText value).toList ++ rest) := by
      simp [text_of_finite finite, negative]
    have tree : shape (unfolded (.double value)) = .neg (.decimal (sizeText value)) := by
      simp [unfolded, shape, negative, literal_neg finite negative]
    have single : ((sizeText value).toList ++ rest).head? ≠ some '-' := by
      simp [digits, not_minus_of_digit digit]
    rw [chars, tree]
    exact goes_trans (goes_minus single) (goes_size value stops)
  · have same := literal_unsigned finite (Bool.eq_false_of_not_eq_true negative)
    have tree : shape (unfolded (.double value)) = .decimal (sizeText value) := by
      simp [unfolded, shape, negative, same]
    rw [same, tree]
    exact goes_size value stops

mutual

/-- The text of an expression is scanned as the tokens of its tree. -/
theorem goes_text (language : Language) (expr : Expr) (writable : isWritable expr) (rest : List Char)
    (stops : Stops rest) :
    Goes language ((expr.text (dialectOf language)).toList ++ rest) ((shape (unfolded expr)).tokens language) rest := by
  cases expr with
  | long value => exact goes_long value rest
  | double value => exact goes_double writable stops
  | string text =>
    have oneLine : ∀ c ∈ text.toList, endsLine c = false := by simpa [isWritable] using writable
    obtain ⟨cs, chars, read⟩ := string_literal language text oneLine stops
    have goes := goes_string read
    rw [String.ofList_toList] at goes
    rw [Expr.text, chars]
    exact goes
  | «variable» name => exact goes_name (word_of_plain writable) fun d next => (stops d next).1
  | pi =>
    have text : "Math.PI" = "Math." ++ "PI" := by simp
    rw [Expr.text, text]
    exact goes_member (by decide) fun d next => (stops d next).1
  | binary op lhs rhs =>
    simp only [isWritable, Bool.and_eq_true] at writable
    have strength : (Tree.binary op (shape (unfolded lhs)) (shape (unfolded rhs))).strength =
        (Expr.binary op lhs rhs).strength := strength_shape (.binary op lhs rhs)
    simp only [Expr.text, unfolded, shape, Tree.tokens, strength, strength_shape]
    apply goes_binary
    · exact fun rest => goes_enclosed (goes_text language lhs writable.1) _ _
    · exact goes_enclosed (goes_text language rhs writable.2) _ _ stops
  | neg operand =>
    have goes : Goes language _ _ rest := goes_enclosed (goes_text language operand writable) 4 operand.strength stops
    -- A second minus sign would make another token of the two.
    have single := enclosed_head language operand writable stops
    simp only [Expr.text, unfolded, shape, Tree.tokens, strength_shape, String.toList_append]
    exact goes_trans (goes_minus single) goes
  | cast ty operand =>
    simp only [isWritable, Bool.and_eq_true, decide_eq_true_eq] at writable
    obtain ⟨rfl, writable⟩ := writable
    have inside := goes_text language operand writable
    cases language with
    | csharp =>
      simp only [unfolded, shape, Tree.tokens, strength_shape]
      exact goes_prefix_cast _ (goes_enclosed inside 4 operand.strength stops)
    | visualBasic => exact goes_call_cast ⟨operand.strength, operand.text VisualBasic.dialect⟩ inside rest
  | call callee arguments =>
    simp only [isWritable, Bool.and_eq_true] at writable
    have chars : ((Expr.call callee arguments).text (dialectOf language)).toList ++ rest = callee.text.toList ++
        '(' :: ((String.intercalate ", " (Expr.texts (dialectOf language) arguments)).toList ++ ')' :: rest) := by
      simp [Expr.text]
    rw [chars]
    exact goes_trans (goes_callee writable.1 _) (goes_parenthesized (goes_arguments language arguments writable.2) rest)

private theorem goes_arguments (language : Language) (arguments : List Expr) (writable : areWritable arguments)
    (rest : List Char) (stops : Stops rest) :
    Goes language ((String.intercalate ", " (Expr.texts (dialectOf language) arguments)).toList ++ rest)
      (layout.separator.intercalate (Tree.tokensAll language (shapes (allUnfolded arguments)))) rest := by
  cases arguments with
  | nil =>
    simp only [Expr.texts, String.intercalate_nil, String.toList_empty, List.nil_append]
    exact goes_nil rest
  | cons expr others =>
    simp only [areWritable, Bool.and_eq_true] at writable
    have first := goes_text language expr writable.1
    have later := goes_arguments language others writable.2 rest stops
    cases others with
    | nil =>
      simp only [Expr.texts, String.intercalate_singleton, allUnfolded, shapes, Tree.tokensAll,
        List.intercalate_singleton]
      exact first rest stops
    | cons next others =>
      simp only [Expr.texts, String.intercalate_cons_cons, allUnfolded, shapes, Tree.tokensAll,
        List.intercalate_cons_cons, List.append_assoc] at later ⊢
      exact goes_comma first later

end

mutual

private theorem shape_plain (expr : Expr) (writable : isWritable expr) : (shape (unfolded expr)).isPlain := by
  cases expr with
  | long value =>
    unfold unfolded
    split <;> rfl
  | double value =>
    unfold unfolded
    split <;> rfl
  | string | pi => rfl
  | «variable» name => exact writable
  | binary op lhs rhs =>
    simp only [isWritable, Bool.and_eq_true] at writable
    simp only [unfolded, shape, Tree.isPlain, Bool.and_eq_true]
    exact ⟨shape_plain lhs writable.1, shape_plain rhs writable.2⟩
  | neg operand => exact shape_plain operand writable
  | cast ty operand =>
    simp only [isWritable, Bool.and_eq_true] at writable
    exact shape_plain operand writable.2
  | call callee arguments =>
    simp only [isWritable, Bool.and_eq_true] at writable
    simp only [unfolded, shape, Tree.isPlain, Bool.and_eq_true]
    exact ⟨writable.1, shapes_plain arguments writable.2⟩

private theorem shapes_plain (arguments : List Expr) (writable : areWritable arguments) :
    Tree.arePlain (shapes (allUnfolded arguments)) := by
  cases arguments with
  | nil => rfl
  | cons expr others =>
    simp only [areWritable, Bool.and_eq_true] at writable
    simp only [allUnfolded, shapes, Tree.arePlain, Bool.and_eq_true]
    exact ⟨shape_plain expr writable.1, shapes_plain others writable.2⟩

end

/-- The text of an expression is read as its tree. -/
theorem read?_text (language : Language) (expr : Expr) (writable : isWritable expr) :
    read? language (expr.text (dialectOf language)) = some (shape (unfolded expr)) := by
  have goes := goes_text language expr writable [] (by simp [Stops])
  have tokens : scan language (expr.text (dialectOf language)).toList =
      some ((shape (unfolded expr)).tokens language) := by
    simpa [Goes, scan, scanFrom] using goes
  rw [read?, tokens]
  exact readTokens?_tokens language _ (shape_plain expr writable)

/-! ## Trees and expressions -/

mutual

/-- Expressions whose literals have no signs, as unfolding leaves them. The least long is its own negation and stands
for a size that no other long has. -/
def isUnsigned : Expr → Bool
  | .long value => 0 ≤ value.toInt || value = Int64.minValue
  | .double value => value.isFinite && !isNegative value
  | .string _ | .variable _ | .pi => true
  | .binary _ lhs rhs => isUnsigned lhs && isUnsigned rhs
  | .neg operand => isUnsigned operand
  | .cast ty operand => ty = .double && isUnsigned operand
  | .call _ arguments => areUnsigned arguments

def areUnsigned : List Expr → Bool
  | [] => true
  | expr :: rest => isUnsigned expr && areUnsigned rest

end

theorem long_unsigned_iff (value : Int64) :
    isUnsigned (.long value) ↔ 0 ≤ value.toInt ∨ value.toInt = -9223372036854775808 := by
  have least : Int64.minValue.toInt = -9223372036854775808 := rfl
  simp only [isUnsigned, Bool.or_eq_true, decide_eq_true_eq]
  rw [← Int64.toInt_inj, least]

theorem neg_unsigned (negative : value.toInt < 0) : isUnsigned (.long (-value)) := by
  have least := Int64.le_toInt value
  rw [long_unsigned_iff, Int64.toInt_neg, Int.bmod_def]
  omega

mutual

private theorem unfolded_unsigned (expr : Expr) (writable : isWritable expr) : isUnsigned (unfolded expr) := by
  cases expr with
  | long value =>
    by_cases negative : value < 0
    · simp only [unfolded, negative, ↓reduceIte, isUnsigned]
      exact neg_unsigned ((long_negative_iff value).mp negative)
    · simp only [unfolded, negative, ↓reduceIte]
      rw [long_negative_iff] at negative
      rw [long_unsigned_iff]
      omega
  | double value =>
    by_cases negative : isNegative value
    · simp [unfolded, negative, isUnsigned, isFinite_neg writable, isNegative_neg writable]
    · simp only [isWritable] at writable
      simp [unfolded, negative, isUnsigned, writable]
  | string | «variable» | pi => rfl
  | binary op lhs rhs =>
    simp only [isWritable, Bool.and_eq_true] at writable
    simp only [unfolded, isUnsigned, Bool.and_eq_true]
    exact ⟨unfolded_unsigned lhs writable.1, unfolded_unsigned rhs writable.2⟩
  | neg operand => exact unfolded_unsigned operand writable
  | cast ty operand =>
    simp only [isWritable, Bool.and_eq_true] at writable
    simp only [unfolded, isUnsigned, Bool.and_eq_true]
    exact ⟨writable.1, unfolded_unsigned operand writable.2⟩
  | call callee arguments =>
    simp only [isWritable, Bool.and_eq_true] at writable
    exact allUnfolded_unsigned arguments writable.2

private theorem allUnfolded_unsigned (arguments : List Expr) (writable : areWritable arguments) :
    areUnsigned (allUnfolded arguments) := by
  cases arguments with
  | nil => rfl
  | cons expr others =>
    simp only [areWritable, Bool.and_eq_true] at writable
    simp only [allUnfolded, areUnsigned, Bool.and_eq_true]
    exact ⟨unfolded_unsigned expr writable.1, allUnfolded_unsigned others writable.2⟩

end

theorem long_of_size (unsigned : isUnsigned (.long a)) (unsigned' : isUnsigned (.long b))
    (size : a.toInt.natAbs = b.toInt.natAbs) : a = b := by
  have most := Int64.toInt_lt a
  have most' := Int64.toInt_lt b
  rw [long_unsigned_iff] at unsigned unsigned'
  rw [← Int64.toInt_inj]
  omega

private theorem double_of_literal (unsigned : isUnsigned (.double x)) (unsigned' : isUnsigned (.double y))
    (same : literal.text x = literal.text y) : x = y := by
  simp only [isUnsigned, Bool.and_eq_true, Bool.not_eq_true'] at unsigned unsigned'
  rw [literal_unsigned unsigned.1 unsigned.2, literal_unsigned unsigned'.1 unsigned'.2] at same
  exact eq_of_sizeText (by rw [unsigned.2, unsigned'.2]) same

mutual

/-- The tree tells the expression. -/
theorem eq_of_shape (expr other : Expr) (unsigned : isUnsigned expr) (unsigned' : isUnsigned other)
    (same : shape expr = shape other) : expr = other := by
  cases expr with
  | long value =>
    cases other <;> simp only [shape, reduceCtorEq, Tree.whole.injEq] at same
    rw [long_of_size unsigned unsigned' same]
  | double value =>
    cases other <;> simp only [shape, reduceCtorEq, Tree.decimal.injEq] at same
    rw [double_of_literal unsigned unsigned' same]
  | string text =>
    cases other <;> simp only [shape, reduceCtorEq, Tree.string.injEq] at same
    rw [same]
  | «variable» name =>
    cases other <;> simp only [shape, reduceCtorEq, Tree.name.injEq] at same
    rw [same]
  | pi =>
    cases other <;> simp only [shape, reduceCtorEq] at same
    rfl
  | binary op lhs rhs =>
    cases other <;> simp only [shape, reduceCtorEq, Tree.binary.injEq] at same
    simp only [isUnsigned, Bool.and_eq_true] at unsigned unsigned'
    rw [same.1, eq_of_shape lhs _ unsigned.1 unsigned'.1 same.2.1, eq_of_shape rhs _ unsigned.2 unsigned'.2 same.2.2]
  | neg operand =>
    cases other <;> simp only [shape, reduceCtorEq, Tree.neg.injEq] at same
    simp only [isUnsigned] at unsigned unsigned'
    rw [eq_of_shape operand _ unsigned unsigned' same]
  | cast ty operand =>
    cases other <;> simp only [shape, reduceCtorEq, Tree.toDouble.injEq] at same
    simp only [isUnsigned, Bool.and_eq_true, decide_eq_true_eq] at unsigned unsigned'
    rw [unsigned.1, unsigned'.1, eq_of_shape operand _ unsigned.2 unsigned'.2 same]
  | call callee arguments =>
    cases other <;> simp only [shape, reduceCtorEq, Tree.call.injEq] at same
    rw [same.1, eq_of_shapes arguments _ unsigned unsigned' same.2]

theorem eq_of_shapes (arguments others : List Expr) (unsigned : areUnsigned arguments)
    (unsigned' : areUnsigned others) (same : shapes arguments = shapes others) : arguments = others := by
  cases arguments with
  | nil =>
    cases others <;> simp only [shapes, reduceCtorEq] at same
    rfl
  | cons expr more =>
    cases others <;> simp only [shapes, reduceCtorEq, List.cons.injEq] at same
    simp only [areUnsigned, Bool.and_eq_true] at unsigned unsigned'
    rw [eq_of_shape expr _ unsigned.1 unsigned'.1 same.1, eq_of_shapes more _ unsigned.2 unsigned'.2 same.2]

end

/-- **Emitted arithmetic reads back.** Both languages read the text that an expression is written as, and the tree that
they read is that of the expression. No other expression has this tree, up to the signs of literals. -/
theorem emitted_text_reads_back (expr : Expr) (writable : isWritable expr) :
    read? .csharp (expr.text CSharp.dialect) = some (shape (unfolded expr)) ∧
      read? .visualBasic (expr.text VisualBasic.dialect) = some (shape (unfolded expr)) ∧
      ∀ other, isWritable other → shape (unfolded other) = shape (unfolded expr) → unfolded other = unfolded expr := by
  refine ⟨read?_text .csharp expr writable, read?_text .visualBasic expr writable, fun other writable' same => ?_⟩
  exact eq_of_shape _ _ (unfolded_unsigned other writable') (unfolded_unsigned expr writable) same

/-- A difference as a right operand, with signs in front of an operand, of a call and of a literal. -/
def signedDifference (operand : Expr) : Expr :=
  .binary .sub (.long 1) (.binary .sub (.neg operand)
    (.cast .double (.neg (.call (.user "f") [.double (-0.5), .string "\"x\" = 1"]))))

example : (signedDifference (.long (-2))).text CSharp.dialect =
    "1L - (-(-2L) - (double)(-f(-0.5, \"\\\"x\\\" = 1\")))" := by decide +kernel

example : (signedDifference (.long (-2))).text VisualBasic.dialect =
    "1L - (-(-2L) - CDbl(-f(-0.5, \"\"\"x\"\" = 1\")))" := by decide +kernel

/-- The sign of a literal and a sign in front of it are read alike. -/
theorem signed_difference_reads_back :
    isWritable (signedDifference (.long (-2))) ∧ isWritable (signedDifference (.neg (.long 2))) ∧
      read? .csharp ((signedDifference (.long (-2))).text CSharp.dialect) =
        some (shape (unfolded (signedDifference (.long (-2))))) ∧
      read? .visualBasic ((signedDifference (.long (-2))).text VisualBasic.dialect) =
        some (shape (unfolded (signedDifference (.long (-2))))) ∧
      unfolded (signedDifference (.neg (.long 2))) = unfolded (signedDifference (.long (-2))) := by
  have writable : isWritable (signedDifference (.long (-2))) := by decide
  have writable' : isWritable (signedDifference (.neg (.long 2))) := by decide
  obtain ⟨csharp, visualBasic, unique⟩ := emitted_text_reads_back (signedDifference (.long (-2))) writable
  exact ⟨writable, writable', csharp, visualBasic, unique _ writable' rfl⟩

end FormulaSheet.EmittedExpressions
