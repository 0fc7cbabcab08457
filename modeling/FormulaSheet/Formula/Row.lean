import FormulaSheet.Markup.Element

/-!
Rows of sibling elements, read from left to right. A `Rule` reads from the front of a row and
either gives a value or fails; in both cases the row left over tells how far it got.
-/

namespace FormulaSheet

open Markup (Element)

/-- `operator`: the operator that an element spells. Only an `mo` element spells one. -/
def Markup.Element.operator? (element : Element) : Option Operator :=
  if element.name = "mo" then Operator.ofText? element.value else none

/-- What an element is called where it is not welcome. -/
def Markup.Element.found (element : Element) : Found :=
  if element.name = "mo" then .operator element.value else .element element.name

/-- `Cursor`: a row of siblings, partly read. -/
structure Row where
  /-- How many elements have been read. -/
  taken : Nat
  /-- The elements still to be read. -/
  rest : List Element
  /-- The line of the element around the row, to which faults at its end belong. -/
  owner : Option Nat

namespace Row

/-- `from_slice`: a row of which nothing has been read. -/
def ofList (elements : List Element) (owner : Option Nat) : Row := ⟨0, elements, owner⟩

/-- The children of an element. -/
def ofChildren (element : Element) : Row := ofList element.children element.line

/-- A row that holds one element and belongs to its line. -/
def ofElement (element : Element) : Row := ofList [element] element.line

/-- `current`: the element to be read next. -/
def current? (row : Row) : Option Element := row.rest.head?

/-- `peek`: the element behind the next one. -/
def following? (row : Row) : Option Element := row.rest.tail.head?

/-- The operator to be read next, if an operator comes next. -/
def operator? (row : Row) : Option Operator := row.current?.bind Element.operator?

/-- The line of the next element, or of the element around the row. -/
def line (row : Row) : Option Nat :=
  match row.rest with
  | element :: _ => some element.line
  | [] => row.owner

def isExhausted (row : Row) : Bool := row.rest.isEmpty

def remaining (row : Row) : Nat := row.rest.length

/-- `element_count`: the number of elements, read or not. -/
def size (row : Row) : Nat := row.taken + row.rest.length

/-- The row behind its next element. -/
def advance (row : Row) : Row := { row with taken := row.taken + 1, rest := row.rest.tail }

/-- `child_cursor`: the children of the next element. -/
def children (row : Row) : Except Fault Row :=
  match row.rest with
  | element :: _ => .ok (ofChildren element)
  | [] => .error (.internal .childrenOfNothing)

end Row

/-- A way to read a value from the front of a row. -/
abbrev Rule (α : Type) := EStateM Fault Row α

namespace Rule

/-- The operator that comes next. -/
def operator? : Rule (Option Operator) := return (← get).operator?

/-- Fails with a complaint. -/
def complain {α : Type} (complaint : Complaint) (line : Option Nat) : Rule α :=
  throw (.malformed complaint line)

/-- `expect`: reads an element with a given name. -/
def take (tag : String) : Rule Element := fun row =>
  match row.rest with
  | [] => .error (.malformed (.endBeforeTag tag) row.owner) row
  | element :: _ =>
    if element.name = tag then .ok element row.advance
    else .error (.malformed (.expectedTag tag element.name) element.line) row

/-- `take_window`: reads one element as a row of its own. -/
def takeWindow : Rule Row := fun row =>
  match row.rest with
  | [] => .error (.malformed .endOfGroup row.owner) row
  | element :: _ => .ok (Row.ofElement element) row.advance

/-- `expect_end`: succeeds at the end of a row only. -/
def finish : Rule Unit := fun row =>
  match row.rest with
  | [] => .ok () row
  | element :: _ => .error (.malformed (.unexpected element.found) element.line) row

/-- Reads a value and then the end of the row. -/
def whole {α : Type} (rule : Rule α) : Rule α := do
  let value ← rule
  finish
  return value

/-- Reads a value from another row and leaves this one as it is. -/
def within {α : Type} (inner : Row) (rule : Rule α) : Rule α := fun row =>
  match rule inner with
  | .ok value _ => .ok value row
  | .error fault _ => .error fault row

end Rule

end FormulaSheet
