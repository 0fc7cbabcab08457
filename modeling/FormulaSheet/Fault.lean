import FormulaSheet.Formula.Operator
import FormulaSheet.Text.Quoted

/-!
Everything that can be wrong with a sheet of formulas. A `Fault` gives the cause and, where one is
known, the line; the wording of each cause stands in one place, and `Fault.message` adds the line
to it.
-/

namespace FormulaSheet

/-- What stands where something else was expected. -/
inductive Found where
  | operator (text : String)
  | element (tag : String)
  | endOfGroup
  deriving DecidableEq, Repr

def Found.text : Found → String
  | .operator text => s!"`{text}`"
  | .element tag => s!"<{tag}>"
  | .endOfGroup => "the end of the group"

/-- What is wrong with the markup or with the shape of a formula. -/
inductive Complaint where
  | startAfterRoot (tag : String)
  | mismatchedEnd (tag expected : String)
  | strayEnd (tag : String)
  | textOutsideRoot
  | malformedMarkup (slice : String)
  | unclosed (tag : String)
  | noRoot
  | expectedTag (tag found : String)
  | endBeforeTag (tag : String)
  | endOfGroup
  | unexpected (found : Found)
  | expectedClosing (bracket : Bracket) (found : Found)
  | missingClosing
  | missingValue
  | strayApplication
  | misplacedOperator (text : String)
  | unknownOperator (text : String)
  | unknownTag (tag : String)
  | emptyNumber
  | unreadableNumber (text : String)
  | notIdentifier (tag : String)
  | missingIdentifier
  | emptyIdentifier (tag : String)
  | emptyOperand (construct : String)
  | assignedConstant
  | unassignable (tag : String)
  | redeclaredBuiltin (name : String)
  | missingParameters (name : String)
  | constantParameter
  | duplicateParameter (parameter name : String)
  /-- A complaint in words of its own. -/
  | remark (text : String)
  deriving DecidableEq, Repr

def Complaint.text : Complaint → String
  | .startAfterRoot tag => s!"Unexpected <{tag}> after the root element"
  | .mismatchedEnd tag expected => s!"Mismatched closing tag </{tag}>, expected </{expected}>"
  | .strayEnd tag => s!"Unexpected closing tag </{tag}>"
  | .textOutsideRoot => "Text outside of the root element"
  | .malformedMarkup slice => "Malformed markup near " ++ Text.quoted slice
  | .unclosed tag => s!"Unclosed tag <{tag}>"
  | .noRoot => "Document has no root element"
  | .expectedTag tag found => s!"Expected <{tag}> but found <{found}>"
  | .endBeforeTag tag => s!"Expected <{tag}> but reached the end of the group"
  | .endOfGroup => "Unexpected end of the group"
  | .unexpected (.operator text) => s!"Unexpected operator `{text}`"
  | .unexpected found => "Unexpected " ++ found.text
  | .expectedClosing bracket found =>
    "Expected `" ++ bracket.closing.toString ++ "` but found " ++ found.text
  | .missingClosing => "Missing closing bracket"
  | .missingValue => "Expected a value but reached the end of the group"
  | .strayApplication => "Function application must follow a function name"
  | .misplacedOperator text => s!"Can't factor operator `{text}`"
  | .unknownOperator text => s!"Unsupported operator `{text}`"
  | .unknownTag tag => s!"Unsupported tag <{tag}>"
  | .emptyNumber => "Found empty number tag <mn>"
  | .unreadableNumber text => s!"Failed to parse number tag <mn>{text}</mn>"
  | .notIdentifier tag => s!"Expected an identifier but found <{tag}>"
  | .missingIdentifier => "Expected an identifier but reached the end of the group"
  | .emptyIdentifier tag => s!"Found empty identifier tag <{tag}>"
  | .emptyOperand construct => s!"Empty operand in {construct}"
  | .assignedConstant => "Can't assign to the constant π"
  | .unassignable tag => s!"Can't assign to <{tag}>"
  | .redeclaredBuiltin name => s!"Can't redeclare builtin function `{name}`"
  | .missingParameters name => s!"Expected a parameter list after `{name}`"
  | .constantParameter => "Can't use the constant π as a parameter"
  | .duplicateParameter parameter name => s!"Duplicate parameter `{parameter}` in `{name}`"
  | .remark text => text

/-- What is understood but not supported. -/
inductive Feature where
  | tag (name : String)
  | functionAsValue (name : String)
  | callOfValue (name : String)
  | nestedDeclaration
  | emptyExpression
  /-- A feature in words of its own. -/
  | remark (text : String)
  deriving DecidableEq, Repr

def Feature.text : Feature → String
  | .tag name => s!"<{name}>"
  | .functionAsValue name => s!"using function `{name}` as a value"
  | .callOfValue name => s!"calling `{name}`, which is not a function"
  | .nestedDeclaration => "declaration in expression position"
  | .emptyExpression => "empty expression"
  | .remark text => text

/-- What a caller of the library must not do. -/
inductive Misuse where
  | childrenOfNothing
  | declarationOfNothing
  | nestingLimit
  /-- A misuse in words of its own. -/
  | remark (text : String)
  deriving DecidableEq, Repr

def Misuse.text : Misuse → String
  | .childrenOfNothing => "Can't create a child cursor, the cursor is exhausted"
  | .declarationOfNothing => "declaration without target"
  | .nestingLimit => "nesting limit reached"
  | .remark text => text

/-- `Error`: a cause with the line it belongs to. -/
inductive Fault where
  | malformed (complaint : Complaint) (line : Option Nat)
  | arity (construct : String) (expected found : Nat) (line : Option Nat)
  | unsupported (feature : Feature) (line : Option Nat)
  | unknownFunction (name : String) (line : Option Nat)
  | internal (misuse : Misuse)
  deriving DecidableEq, Repr

namespace Fault

/-- The line of a fault, counted from 1. -/
def line : Fault → Option Nat
  | .malformed _ line | .arity _ _ _ line | .unsupported _ line | .unknownFunction _ line => line
  | .internal _ => none

/-- `or_line`: the same fault on `line`, unless it has a line already. An internal fault never has
one. -/
def orLine (fault : Fault) (line : Option Nat) : Fault :=
  match fault with
  | .malformed complaint own => .malformed complaint (own <|> line)
  | .arity construct expected found own => .arity construct expected found (own <|> line)
  | .unsupported feature own => .unsupported feature (own <|> line)
  | .unknownFunction name own => .unknownFunction name (own <|> line)
  | .internal misuse => .internal misuse

/-- A fault that has a line keeps it. -/
theorem orLine_of_line {fault : Fault} {own : Nat} (line : Option Nat)
    (known : fault.line = some own) : fault.orLine line = fault := by
  cases fault <;> simp_all [Fault.line, orLine]

/-- `at_line`: how a message names its line. -/
def lineSuffix : Option Nat → String
  | some line => s!" (line {line})"
  | none => ""

/-- The wording of a fault, its line included. -/
def message : Fault → String
  | .malformed complaint line => complaint.text ++ lineSuffix line
  | .arity construct expected found line =>
    s!"{construct} expects {expected} operand(s) but found {found}" ++ lineSuffix line
  | .unsupported feature line => "not implemented: " ++ feature.text ++ lineSuffix line
  | .unknownFunction name line => s!"unknown function `{name}`" ++ lineSuffix line
  | .internal misuse => "internal error: " ++ misuse.text

/-- `ErrorReporter`: a list of faults, one on a line. -/
def report (faults : List Fault) : String :=
  String.join (faults.map fun fault => "ERROR: " ++ fault.message ++ "\n")

end Fault

end FormulaSheet
