/-!
Names in the generated program. Every identifier of a sheet becomes a name of ASCII letters,
digits and underscores behind a stem for its role; a name that is bound again gets the number of
its binding.
-/

namespace FormulaSheet

/-- A number in at least four upper-case hexadecimal digits. -/
def hexCode (n : Nat) : List Char :=
  let digits := (Nat.toDigits 16 n).map Char.toUpper
  List.replicate (4 - digits.length) '0' ++ digits

/-- How one character of an identifier is written: letters, digits and `_` as they are, any other
by its code point. -/
def sanitizedChar (c : Char) : List Char :=
  if c.isAlphanum || c = '_' then [c] else '_' :: 'u' :: hexCode c.toNat

/-- `sanitize`: the identifier in letters, digits and underscores. -/
def sanitized (identifier : String) : String :=
  String.ofList (identifier.toList.flatMap sanitizedChar)

/-- The stems in front of generated names. -/
structure Naming where
  variableStem : String := "v_"
  functionStem : String := "f_"
  initStem : String := "Init_"
  deriving DecidableEq, Repr

namespace Naming

/-- The first binding of a name goes without a number. -/
def numbered (name : String) (generation : Nat) : String :=
  if generation ≤ 1 then name else s!"{name}_{generation}"

/-- The field that holds the `generation`-th binding of a variable, counted from 1. -/
def field (naming : Naming) (identifier : String) (generation : Nat) : String :=
  numbered (naming.variableStem ++ sanitized identifier) generation

/-- A parameter of a function. -/
def parameter (naming : Naming) (identifier : String) : String :=
  naming.variableStem ++ sanitized identifier

/-- The function of the `generation`-th definition of a name, counted from 1. -/
def function (naming : Naming) (identifier : String) (generation : Nat) : String :=
  numbered (naming.functionStem ++ sanitized identifier) generation

/-- The function that computes the first value of a field. -/
def init (naming : Naming) (field : String) : String := naming.initStem ++ field

end Naming

end FormulaSheet
