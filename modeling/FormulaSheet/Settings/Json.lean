import FormulaSheet.Decimal.Digits

/-!
JSON texts. Numbers are checked and not kept, for no setting is a number. A string whose escapes
do not pair up as UTF-16 is well formed but stands for no text.
-/

namespace FormulaSheet.Settings

inductive Json where
  | null
  | bool (value : Bool)
  | number
  | string (text : Option String)
  | array (items : List Json)
  /-- Members in the order of the text; names may repeat. -/
  | object (members : List (Option String × Json))

namespace Json

/-- What reading gives: a value and the text behind it. -/
abbrev Reading (α : Type) := Option (α × List Char)

def skipBlanks (cs : List Char) : List Char :=
  cs.dropWhile fun c => c = ' ' || c = '\n' || c = '\t' || c = '\r'

/-- A character of a string, or a code unit given by its number. -/
inductive Piece where
  | char (c : Char)
  | unit (code : Nat)

/-- The character of a short escape. -/
def shortEscape? : Char → Option Char
  | '"' => some '"'
  | '\\' => some '\\'
  | '/' => some '/'
  | 'b' => some '\x08'
  | 'f' => some '\x0c'
  | 'n' => some '\n'
  | 'r' => some '\r'
  | 't' => some '\t'
  | _ => none

/-- The pieces of a string behind its opening quote, up to and including the closing one. -/
def pieces : List Char → Reading (List Piece)
  | [] => none
  | '"' :: rest => some ([], rest)
  | '\\' :: 'u' :: a :: b :: c :: d :: rest =>
    match Decimal.numeral? 16 [a, b, c, d] with
    | some code => (pieces rest).map fun (tail, rest) => (.unit code :: tail, rest)
    | none => none
  | '\\' :: c :: rest =>
    match shortEscape? c with
    | some character => (pieces rest).map fun (tail, rest) => (.char character :: tail, rest)
    | none => none
  | c :: rest =>
    if c.toNat < 0x20 ∨ c = '\\' then none
    else (pieces rest).map fun (tail, rest) => (.char c :: tail, rest)

/-- The text of pieces, if their code units pair up. -/
def text? : List Piece → Option (List Char)
  | [] => some []
  | .char c :: rest => (text? rest).map (c :: ·)
  | .unit high :: rest =>
    if 0xD800 ≤ high ∧ high < 0xDC00 then
      match rest with
      | .unit low :: rest =>
        if 0xDC00 ≤ low ∧ low < 0xE000 then
          let code := 0x10000 + (high - 0xD800) * 0x400 + (low - 0xDC00)
          (text? rest).map (Char.ofNat code :: ·)
        else none
      | _ => none
    else if 0xDC00 ≤ high ∧ high < 0xE000 then none
    else (text? rest).map (Char.ofNat high :: ·)

/-- A string behind its opening quote. -/
def string? (cs : List Char) : Reading (Option String) :=
  (pieces cs).map fun (found, rest) => ((text? found).map String.ofList, rest)

/-- A run of digits that is not empty. -/
def skipDigits? (cs : List Char) : Option (List Char) :=
  match cs with
  | c :: rest => if c.isDigit then some (rest.dropWhile Char.isDigit) else none
  | [] => none

/-- The digits in front of the point: no zero leads others. -/
def skipWhole? : List Char → Option (List Char)
  | '0' :: c :: rest => if c.isDigit then none else some (c :: rest)
  | cs => skipDigits? cs

def skipFraction? : List Char → Option (List Char)
  | '.' :: rest => skipDigits? rest
  | cs => some cs

def skipExponent? : List Char → Option (List Char)
  | c :: rest =>
    if c = 'e' ∨ c = 'E' then
      match rest with
      | '+' :: rest | '-' :: rest => skipDigits? rest
      | rest => skipDigits? rest
    else some (c :: rest)
  | [] => some []

/-- A number; the text behind it is given. -/
def skipNumber? (cs : List Char) : Option (List Char) :=
  let unsigned := match cs with
    | '-' :: rest => rest
    | cs => cs
  (skipWhole? unsigned).bind fun rest => (skipFraction? rest).bind skipExponent?

mutual

/-- A value at the beginning of a text without blanks in front. -/
def value? : Nat → List Char → Reading Json
  | 0, _ => none
  | limit + 1, cs =>
    match cs with
    | 'n' :: 'u' :: 'l' :: 'l' :: rest => some (.null, rest)
    | 't' :: 'r' :: 'u' :: 'e' :: rest => some (.bool true, rest)
    | 'f' :: 'a' :: 'l' :: 's' :: 'e' :: rest => some (.bool false, rest)
    | '"' :: rest => (string? rest).map fun (text, rest) => (.string text, rest)
    | '[' :: rest =>
      match skipBlanks rest with
      | ']' :: rest => some (.array [], rest)
      | rest => (items? limit rest).map fun (items, rest) => (.array items, rest)
    | '\x7b' :: rest =>
      match skipBlanks rest with
      | '\x7d' :: rest => some (.object [], rest)
      | rest => (members? limit rest).map fun (members, rest) => (.object members, rest)
    | cs => (skipNumber? cs).map fun rest => (.number, rest)

/-- The items of an array, up to and including its end. -/
def items? : Nat → List Char → Reading (List Json)
  | 0, _ => none
  | limit + 1, cs =>
    match value? limit cs with
    | none => none
    | some (item, rest) =>
      match skipBlanks rest with
      | ']' :: rest => some ([item], rest)
      | ',' :: rest =>
        (items? limit (skipBlanks rest)).map fun (items, rest) => (item :: items, rest)
      | _ => none

/-- The members of an object, up to and including its end. -/
def members? : Nat → List Char → Reading (List (Option String × Json))
  | 0, _ => none
  | limit + 1, cs =>
    match cs with
    | '"' :: rest =>
      match string? rest with
      | none => none
      | some (name, rest) =>
        match skipBlanks rest with
        | ':' :: rest =>
          match value? limit (skipBlanks rest) with
          | none => none
          | some (item, rest) =>
            match skipBlanks rest with
            | '\x7d' :: rest => some ([(name, item)], rest)
            | ',' :: rest =>
              (members? limit (skipBlanks rest)).map fun (members, rest) =>
                ((name, item) :: members, rest)
            | _ => none
        | _ => none
    | _ => none

end

/-- The value that makes up a whole text. -/
def ofText? (text : String) : Option Json :=
  let cs := text.toList
  match value? (2 * cs.length + 2) (skipBlanks cs) with
  | some (value, rest) => if (skipBlanks rest).isEmpty then some value else none
  | none => none

end Json

end FormulaSheet.Settings
