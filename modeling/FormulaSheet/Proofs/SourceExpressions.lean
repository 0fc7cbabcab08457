import FormulaSheet.Proofs.ChainReading
import FormulaSheet.Target.Language

/-! How the target languages read expressions. Sums and products are chains of operands, and a minus sign in front of
an operand binds tighter than either. A cast to double is such a prefix too in one language,
and a call in the other. The tokens that a tree is written with, with parentheses around an operand that is weaker
than its place asks for, are read back as that tree. -/
namespace FormulaSheet.SourceExpressions
open ChainReading Target

/-! ## Tokens and trees -/

inductive Token where
  | left
  | right
  | comma
  | dot
  | operator (op : BinaryOp)
  /-- A whole number of type long. -/
  | whole (value : Nat)
  /-- A floating-point number as it is spelled. -/
  | decimal (spelling : String)
  /-- A string literal, with the text that it stands for. -/
  | string (text : String)
  | word (name : String)
  deriving DecidableEq

/-- Expressions as they are read. There are no negative literals: a minus sign is always a negation. -/
inductive Tree where
  | whole (value : Nat)
  | decimal (spelling : String)
  | string (text : String)
  | name (text : String)
  | pi
  | binary (op : BinaryOp) (lhs rhs : Tree)
  | neg (operand : Tree)
  | toDouble (operand : Tree)
  | call (callee : Callee) (arguments : List Tree)

/-! ## Reading -/

def operator? : Reader Token BinaryOp
  | .operator op :: rest => some (op, rest)
  | _ => none

def layout : Layout Token Tree where
  operator op := [.operator op]
  operator? := operator?
  separator := [.comma]
  closing := .right
  join := .binary

/-- A call of a function behind its opening parenthesis. -/
def call (inner : Reader Token Tree) (callee : Callee) : Reader Token Tree := fun tokens =>
  (layout.arguments inner tokens).map fun read => (.call callee read.1, read.2)

/-- The functions of a program hide nothing: the name of a helper always means the helper. -/
def calleeNamed (name : String) : Callee :=
  match Helper.all.find? (·.name = name) with
  | some helper => .helper helper
  | none => .user name

def mathFunction? (name : String) : Option MathFunction :=
  [MathFunction.sin, .cos, .tan, .pow, .sqrt].find? (·.name = name)

/-- A member of the library: the circle constant, or a function with its arguments. -/
def member (inner : Reader Token Tree) (name : String) : Reader Token Tree := fun tokens =>
  if name = "PI" then some (.pi, tokens)
  else
    match mathFunction? name, tokens with
    | some function, .left :: rest => call inner (.math function) rest
    | _, _ => none

/-- A literal, a name, a call or an expression in parentheses. -/
def primary (language : Language) (inner : Reader Token Tree) : Reader Token Tree
  | .whole value :: rest => some (.whole value, rest)
  | .decimal spelling :: rest => some (.decimal spelling, rest)
  | .string text :: rest => some (.string text, rest)
  | .left :: rest => layout.closed inner rest
  | .word name :: .left :: rest =>
    if language = .visualBasic ∧ name = "CDbl" then
      (layout.closed inner rest).map fun read => (.toDouble read.1, read.2)
    else call inner (calleeNamed name) rest
  | .word owner :: .dot :: .word name :: rest => if owner = "Math" then member inner name rest else none
  | .word name :: rest => some (.name name, rest)
  | _ => none

/-- The operand of a cast that is written in front of it. -/
def castOperand? : Language → List Token → Option (List Token)
  | .csharp, .left :: .word name :: .right :: rest => if name = "double" then some rest else none
  | _, _ => none

/-- An operand with the signs and casts in front of it, nested at most `depth` deep. -/
def unary (language : Language) : Nat → Reader Token Tree
  | 0, _ => none
  | depth + 1, .operator .sub :: rest => (unary language depth rest).map fun read => (.neg read.1, read.2)
  | depth + 1, tokens =>
    match castOperand? language tokens with
    | some rest => (unary language depth rest).map fun read => (.toDouble read.1, read.2)
    | none => primary language (layout.sum (unary language depth)) tokens

/-- The expression that all the tokens make up. No expression nests deeper than it has tokens. -/
def readTokens? (language : Language) (tokens : List Token) : Option Tree :=
  match layout.sum (unary language tokens.length) tokens with
  | some (tree, []) => some tree
  | _ => none

/-! ## Writing -/

/-- How strongly a tree holds together. -/
def Tree.strength : Tree → Nat
  | .binary .add _ _ | .binary .sub _ _ => 1
  | .binary _ _ _ => 2
  | .neg _ => 3
  | _ => 4

/-- The tokens of an operand in a place that asks for a strength of at least `least`. -/
def enclosed (least strength : Nat) (tokens : List Token) : List Token :=
  if strength < least then .left :: (tokens ++ [.right]) else tokens

def calleeTokens : Callee → List Token
  | .math function => [.word "Math", .dot, .word function.name]
  | .helper helper => [.word helper.name]
  | .user name => [.word name]

mutual

/-- The tokens that a tree is written with. -/
def Tree.tokens (language : Language) : Tree → List Token
  | .whole value => [.whole value]
  | .decimal spelling => [.decimal spelling]
  | .string text => [.string text]
  | .name text => [.word text]
  | .pi => [.word "Math", .dot, .word "PI"]
  | .binary op lhs rhs =>
    let strength := (Tree.binary op lhs rhs).strength
    enclosed strength lhs.strength (lhs.tokens language) ++
      .operator op :: enclosed (strength + 1) rhs.strength (rhs.tokens language)
  | .neg operand => .operator .sub :: enclosed 4 operand.strength (operand.tokens language)
  | .toDouble operand =>
    match language with
    | .csharp => .left :: .word "double" :: .right :: enclosed 4 operand.strength (operand.tokens language)
    | .visualBasic => .word "CDbl" :: .left :: (operand.tokens language ++ [.right])
  | .call callee arguments =>
    calleeTokens callee ++ .left :: (layout.separator.intercalate (Tree.tokensAll language arguments) ++ [.right])

def Tree.tokensAll (language : Language) : List Tree → List (List Token)
  | [] => []
  | tree :: rest => tree.tokens language :: Tree.tokensAll language rest

end

/-- Characters of names. -/
def isWordChar (c : Char) : Bool := c.isAlphanum || c = '_'

/-- Letters, digits and underscores, not in front of them a digit. -/
def isWord (name : String) : Bool :=
  !name.isEmpty && name.toList.all isWordChar && !(name.toList.headD '_').isDigit

/-- Names that a program may use: words that are neither the name of a helper nor that of a cast. -/
def isPlainName (name : String) : Bool :=
  isWord name && name ≠ "CDbl" && name ≠ "double" && Helper.all.all (·.name ≠ name)

def isPlainCallee : Callee → Bool
  | .user name => isPlainName name
  | _ => true

mutual

/-- All names in the tree are names that a program may use. -/
def Tree.isPlain : Tree → Bool
  | .name text => isPlainName text
  | .binary _ lhs rhs => lhs.isPlain && rhs.isPlain
  | .neg operand | .toDouble operand => operand.isPlain
  | .call callee arguments => isPlainCallee callee && Tree.arePlain arguments
  | .whole _ | .decimal _ | .string _ | .pi => true

def Tree.arePlain : List Tree → Bool
  | [] => true
  | tree :: rest => tree.isPlain && Tree.arePlain rest

end

/-! ## First tokens -/

private theorem enclosed_cons (some : tokens = first :: others) :
    ∃ token more, enclosed least strength tokens = token :: more ∧ (token = .left ∨ token = first) := by
  unfold enclosed
  split
  · exact ⟨_, _, rfl, .inl rfl⟩
  · exact ⟨_, _, some, .inr rfl⟩

private theorem plainName_ne (plain : isPlainName name) :
    name ≠ "double" ∧ name ≠ "CDbl" ∧ ∀ helper ∈ Helper.all, helper.name ≠ name := by
  simp only [isPlainName, Bool.and_eq_true, decide_eq_true_eq, List.all_eq_true] at plain
  exact ⟨plain.1.2, plain.1.1.2, plain.2⟩

/-- An expression starts with some token, which is not the name of a type. -/
theorem tokens_cons (language : Language) (tree : Tree) (plain : tree.isPlain) :
    ∃ first others, tree.tokens language = first :: others ∧ first ≠ .word "double" := by
  cases tree with
  | whole | decimal | string | pi => exact ⟨_, _, rfl, by simp⟩
  | name text => exact ⟨_, _, rfl, by simpa using (plainName_ne plain).1⟩
  | binary op lhs rhs =>
    simp only [Tree.isPlain, Bool.and_eq_true] at plain
    obtain ⟨first, others, tokens, notType⟩ := tokens_cons language lhs plain.1
    obtain ⟨token, more, enclosedIs, rfl | rfl⟩ := enclosed_cons tokens
    · exact ⟨_, _, by rw [Tree.tokens, enclosedIs]; rfl, by simp⟩
    · exact ⟨_, _, by rw [Tree.tokens, enclosedIs]; rfl, notType⟩
  | neg operand => exact ⟨_, _, rfl, by simp⟩
  | toDouble operand => cases language <;> exact ⟨_, _, rfl, by simp⟩
  | call callee arguments =>
    cases callee with
    | math function => exact ⟨_, _, rfl, by simp⟩
    | helper helper => exact ⟨_, _, rfl, by cases helper <;> simp [Helper.name]⟩
    | user name =>
      simp only [Tree.isPlain, isPlainCallee, Bool.and_eq_true] at plain
      exact ⟨_, _, rfl, by simpa using (plainName_ne plain.1).1⟩

/-! ## Reading what is written -/

/-- Tokens in front of which an operand ends. -/
def Ends (rest : List Token) : Prop := ∀ token ∈ rest.head?, token ≠ .left ∧ token ≠ .dot

theorem lawful : layout.Lawful Ends where
  operator_read op rest := rfl
  operator_some op := by simp [layout]
  operator_ends op rest := by simp [layout, Ends]
  closes_nil := ⟨by simp [Ends], rfl⟩
  closes_closing rest := ⟨by simp [layout, Ends], rfl⟩
  closes_separator rest := ⟨by simp [layout, Ends], rfl⟩
  separator_apart rest := by simp [layout]

/-- Tokens are read as a tree, in every place that asks for no more than their strength. -/
abbrev ReadBack (language : Language) (strength : Nat) (tokens : List Token) (tree : Tree) : Prop :=
  layout.ReadBack Ends (unary language) strength tokens tree

section Reading

variable {language : Language} {tokens : List Token} {tree : Tree} {strength least : Nat}

private theorem unary_of_primary (noSign : ∀ rest, tokens ≠ .operator .sub :: rest)
    (noCast : castOperand? language tokens = none) (depth : Nat) :
    unary language (depth + 1) tokens = primary language (layout.sum (unary language depth)) tokens := by
  rw [unary]
  · rw [noCast]
  · exact fun rest same => noSign rest same

private theorem castOperand?_eq_none (notType : first ≠ .word "double") (others : List Token) :
    castOperand? language (.left :: first :: others) = none := by
  unfold castOperand?
  split
  · rename_i name rest same
    cases same
    rw [if_neg fun type => notType (by rw [type])]
  · rfl

/-- Every expression is read back in parentheses. -/
theorem reads_parentheses (begins : tokens = first :: others) (notType : first ≠ .word "double")
    (opens : layout.OpensSum Ends (unary language) tokens tree) :
    Layout.ReadsOperand Ends (unary language) (.left :: (tokens ++ [.right])) tree := by
  intro depth rest deep ends
  simp only [List.length_cons, List.length_append, List.length_nil] at deep
  obtain ⟨depth, rfl⟩ : ∃ inner, depth = inner + 1 := ⟨depth - 1, by omega⟩
  have noCast : castOperand? language (.left :: (tokens ++ [.right]) ++ rest) = none := by
    rw [begins]
    exact castOperand?_eq_none notType _
  rw [unary_of_primary (by simp) noCast, List.cons_append, List.append_assoc, primary]
  exact Layout.closed_reads lawful opens (by omega) rest

/-- What is enclosed is read in the place that it is enclosed for. -/
theorem readBack_enclosed (plain : tree.isPlain) (read : ReadBack language tree.strength (tree.tokens language) tree)
    (least : Nat) : ReadBack language least (enclosed least tree.strength (tree.tokens language)) tree := by
  unfold enclosed
  split
  · obtain ⟨first, others, begins, notType⟩ := tokens_cons language tree plain
    exact Layout.readBack_of_operand (reads_parentheses begins notType read.whole)
  · exact Layout.readBack_of_stronger read (by omega)

/-! ## Trees -/

/-- A tree is read back from its tokens. -/
abbrev ReadsBack (language : Language) (tree : Tree) : Prop :=
  ReadBack language tree.strength (tree.tokens language) tree

theorem readsBack_binary (op : BinaryOp) (plain : (Tree.binary op lhs rhs).isPlain) (left : ReadsBack language lhs)
    (right : ReadsBack language rhs) : ReadsBack language (.binary op lhs rhs) := by
  obtain ⟨plainLeft, plainRight⟩ : lhs.isPlain ∧ rhs.isPlain := by simpa [Tree.isPlain] using plain
  have strength : (Tree.binary op lhs rhs).strength = Layout.strengthOf op := by cases op <;> rfl
  rw [ReadsBack, Tree.tokens, strength]
  exact Layout.readBack_operator lawful op (readBack_enclosed plainLeft left _) (readBack_enclosed plainRight right _)

private theorem readsBack_neg (plain : operand.isPlain) (read : ReadsBack language operand) :
    ReadsBack language (.neg operand) := by
  refine Layout.readBack_of_operand fun depth rest deep ends => ?_
  rw [Tree.tokens, List.length_cons] at deep
  obtain ⟨depth, rfl⟩ : ∃ inner, depth = inner + 1 := ⟨depth - 1, by omega⟩
  have inside := (readBack_enclosed plain read 4).alone (by omega) depth rest (by omega) ends
  rw [Tree.tokens, List.cons_append, unary, inside, Option.map_some]

private theorem readsBack_toDouble (plain : operand.isPlain) (read : ReadsBack language operand) :
    ReadsBack language (.toDouble operand) := by
  refine Layout.readBack_of_operand fun depth rest deep ends => ?_
  cases language with
  | csharp =>
    simp only [Tree.tokens, List.length_cons] at deep
    obtain ⟨depth, rfl⟩ : ∃ inner, depth = inner + 1 := ⟨depth - 1, by omega⟩
    have inside := (readBack_enclosed plain read 4).alone (by omega) depth rest (by omega) ends
    simp only [Tree.tokens, List.cons_append]
    rw [unary]
    · simp only [castOperand?, ↓reduceIte]
      rw [inside, Option.map_some]
    · simp
  | visualBasic =>
    simp only [Tree.tokens, List.length_cons, List.length_append, List.length_nil] at deep
    obtain ⟨depth, rfl⟩ : ∃ inner, depth = inner + 1 := ⟨depth - 1, by omega⟩
    have inside := Layout.closed_reads lawful read.whole (by omega : _ ≤ depth) rest
    simp only [Tree.tokens, List.cons_append, List.append_assoc]
    rw [unary_of_primary (by simp) (by simp [castOperand?]), primary, if_pos ⟨rfl, rfl⟩]
    exact congrArg (Option.map _) inside

private theorem readsBack_leaf (first : Token) (leaf : tree.tokens language = [first]) (noSign : first ≠ .operator .sub)
    (noCast : first ≠ .left)
    (read : ∀ inner rest, Ends rest → primary language inner (first :: rest) = some (tree, rest)) :
    ReadsBack language tree := by
  refine Layout.readBack_of_operand fun depth rest deep ends => ?_
  rw [leaf] at deep ⊢
  obtain ⟨depth, rfl⟩ : ∃ inner, depth = inner + 1 := ⟨depth - 1, by simp at deep; omega⟩
  have none : castOperand? language (first :: rest) = none := by
    unfold castOperand?
    split
    · rename_i same
      cases same
      exact absurd rfl noCast
    · rfl
  rw [List.singleton_append, unary_of_primary (by simp [noSign]) none, read _ rest ends]

private theorem primary_name {inner : Reader Token Tree} (text : String) (ends : Ends rest) :
    primary language inner (.word text :: rest) = some (.name text, rest) := by
  cases rest with
  | nil => rfl
  | cons token rest =>
    obtain ⟨notLeft, notDot⟩ := ends token rfl
    rw [primary] <;> simp_all

/-- No expression begins with a closing parenthesis. -/
theorem sum_closing (language : Language) (depth : Nat) (rest : List Token) :
    layout.sum (unary language depth) (layout.closing :: rest) = none := by
  cases depth <;> cases language <;>
    simp [Layout.sum, Layout.chain, Layout.product, layout, unary, castOperand?, primary]

private theorem call_reads (callee : Callee)
    (each : List.Forall₂ (layout.OpensSum Ends (unary language)) writings trees)
    (fits : (layout.separator.intercalate writings).length ≤ depth) (rest : List Token) :
    call (layout.sum (unary language depth)) callee (layout.separator.intercalate writings ++ [.right] ++ rest) =
      some (.call callee trees, rest) := by
  have read := Layout.arguments_reads lawful (sum_closing language depth) each fits rest
  rw [List.append_assoc]
  exact congrArg (Option.map _) read

private theorem calleeNamed_user (plain : isPlainName name) : calleeNamed name = .user name := by
  have none : Helper.all.find? (·.name = name) = none := by
    simpa using (plainName_ne plain).2.2
  rw [calleeNamed, none]

/-- A call is read back, whatever is called. -/
theorem readsBack_call (callee : Callee) (trees : List Tree) (plain : isPlainCallee callee)
    (each : List.Forall₂ (layout.OpensSum Ends (unary language)) (Tree.tokensAll language trees) trees) :
    ReadsBack language (.call callee trees) := by
  refine Layout.readBack_of_operand fun depth rest deep ends => ?_
  simp only [Tree.tokens, List.length_append, List.length_cons, List.length_nil] at deep
  obtain ⟨depth, rfl⟩ : ∃ inner, depth = inner + 1 := ⟨depth - 1, by omega⟩
  have read := call_reads callee each (by omega : _ ≤ depth) rest
  rw [Tree.tokens, List.append_assoc, List.cons_append]
  cases callee with
  | math function =>
    have found : mathFunction? function.name = some function := by cases function <;> decide
    have notPi : function.name ≠ "PI" := by cases function <;> decide
    simp only [calleeTokens, List.cons_append, List.nil_append]
    rw [unary_of_primary (by simp) (by cases language <;> rfl), primary, if_pos rfl]
    simpa only [member, notPi, ↓reduceIte, found] using read
  | helper helper =>
    have found : calleeNamed helper.name = .helper helper := by cases helper <;> decide
    have noCast : ¬ (language = .visualBasic ∧ helper.name = "CDbl") := by cases helper <;> simp [Helper.name]
    simp only [calleeTokens, List.cons_append, List.nil_append]
    rw [unary_of_primary (by simp) (by cases language <;> rfl), primary, if_neg noCast, found]
    exact read
  | user name =>
    have noCast : ¬ (language = .visualBasic ∧ name = "CDbl") := fun cast => (plainName_ne plain).2.1 cast.2
    simp only [calleeTokens, List.cons_append, List.nil_append]
    rw [unary_of_primary (by simp) (by cases language <;> rfl), primary, if_neg noCast, calleeNamed_user plain]
    exact read

mutual

private theorem readsBack (language : Language) (tree : Tree) (plain : tree.isPlain) : ReadsBack language tree := by
  cases tree with
  | whole value => exact readsBack_leaf _ rfl (by simp) (by simp) fun _ _ _ => rfl
  | decimal spelling => exact readsBack_leaf _ rfl (by simp) (by simp) fun _ _ _ => rfl
  | string text => exact readsBack_leaf _ rfl (by simp) (by simp) fun _ _ _ => rfl
  | name text => exact readsBack_leaf _ rfl (by simp) (by simp) fun _ _ ends => primary_name text ends
  | pi =>
    refine Layout.readBack_of_operand fun depth rest deep ends => ?_
    obtain ⟨depth, rfl⟩ : ∃ inner, depth = inner + 1 := ⟨depth - 1, by simp [Tree.tokens] at deep; omega⟩
    simp only [Tree.tokens, List.cons_append, List.nil_append]
    rw [unary_of_primary (by simp) (by cases language <;> rfl), primary, if_pos rfl]
    simp only [member, ↓reduceIte]
  | binary op lhs rhs =>
    obtain ⟨plainLeft, plainRight⟩ : lhs.isPlain ∧ rhs.isPlain := by simpa [Tree.isPlain] using plain
    exact readsBack_binary op plain (readsBack language lhs plainLeft) (readsBack language rhs plainRight)
  | neg operand => exact readsBack_neg plain (readsBack language operand plain)
  | toDouble operand => exact readsBack_toDouble plain (readsBack language operand plain)
  | call callee trees =>
    simp only [Tree.isPlain, Bool.and_eq_true] at plain
    exact readsBack_call callee trees plain.1 (opensAll language trees plain.2)

private theorem opensAll (language : Language) (trees : List Tree) (plain : Tree.arePlain trees) :
    List.Forall₂ (layout.OpensSum Ends (unary language)) (Tree.tokensAll language trees) trees := by
  cases trees with
  | nil => exact .nil
  | cons tree others =>
    simp only [Tree.arePlain, Bool.and_eq_true] at plain
    exact .cons (readsBack language tree plain.1).whole (opensAll language others plain.2)

end

/-- **Trees are read back.** The tokens that a tree is written with are read as that tree. -/
theorem readTokens?_tokens (language : Language) (tree : Tree) (plain : tree.isPlain) :
    readTokens? language (tree.tokens language) = some tree := by
  have read := Layout.sum_reads (readsBack language tree plain).whole (Nat.le_refl _) lawful.closes_nil
  rw [List.append_nil] at read
  rw [readTokens?, read]

end Reading

end FormulaSheet.SourceExpressions
