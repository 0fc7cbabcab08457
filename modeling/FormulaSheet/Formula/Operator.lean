/-!
The operators that may stand between the operands of a formula, each with its spellings.
-/

namespace FormulaSheet

/-- The three kinds of brackets. -/
inductive Bracket where
  | round
  | square
  | curly
  deriving DecidableEq, Repr

/-- The character that closes a bracket. -/
def Bracket.closing : Bracket → Char
  | .round => ')'
  | .square => ']'
  | .curly => '\x7d'

inductive Operator where
  | plus
  | minus
  | times
  | divide
  | equals
  | comma
  | opening (bracket : Bracket)
  | closing (bracket : Bracket)
  /-- The invisible sign between a function and its arguments. -/
  | application
  deriving DecidableEq, Repr

namespace Operator

/-- `classify`: the operator that a text spells. -/
def ofText? : String → Option Operator
  | "+" => some .plus
  | "-" | "\u2212" => some .minus
  | "*" | "\u2217" | "\u00b7" | "\u22c5" | "\u00d7" | "\u2062" => some .times
  | "/" | "\u00f7" | "\u2215" => some .divide
  | "=" => some .equals
  | "," | "\u2063" => some .comma
  | "(" => some (.opening .round)
  | "[" => some (.opening .square)
  | "\x7b" => some (.opening .curly)
  | ")" => some (.closing .round)
  | "]" => some (.closing .square)
  | "\x7d" => some (.closing .curly)
  | "\u2061" => some .application
  | _ => none

/-- `ends_term`: whether a product of factors ends in front of the operator. -/
def endsTerm : Operator → Bool
  | .plus | .minus | .equals | .comma | .closing _ => true
  | .times | .divide | .opening _ | .application => false

end Operator

end FormulaSheet
