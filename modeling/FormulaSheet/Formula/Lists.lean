import FormulaSheet.Formula.Row

/-!
Lists of items in a row: between brackets, separated by commas, or one item per child of a fenced
group. Each rule here takes the rule for one item. A loop runs at most once for each element left
in the row, because every item that is read takes at least one element.
-/

namespace FormulaSheet

open Markup (Element)

namespace Rule

/-- `expected_close`: the fault of a bracket that is not closed where it should be. -/
def unclosed (bracket : Bracket) (row : Row) : Fault :=
  match row.rest with
  | [] => .malformed .missingClosing row.owner
  | element :: _ => .malformed (.expectedClosing bracket element.found) element.line

/-- Reads the closing bracket. -/
def close (bracket : Bracket) : Rule Unit := do
  if (← operator?) = some (.closing bracket) then
    let _ ← take "mo"
  else throw (unclosed bracket (← get))

/-- Reads items and commas up to and including the closing bracket, `limit` items at most. -/
def bracketedItems {α : Type} (bracket : Bracket) (item : Rule α) : Nat → Rule (List α)
  | 0 => throw (.internal .nestingLimit)
  | limit + 1 => do
    let first ← item
    if (← operator?) = some .comma then
      let _ ← take "mo"
      return first :: (← bracketedItems bracket item limit)
    else
      close bracket
      return [first]

/-- `parse_bracketed`: reads an opening bracket, items separated by commas, and the closing bracket.
-/
def bracketed {α : Type} (bracket : Bracket) (item : Rule α) : Rule (List α) := do
  let _ ← take "mo"
  if (← operator?) = some (.closing bracket) then
    let _ ← take "mo"
    return []
  else bracketedItems bracket item ((← get).remaining + 1)

/-- Reads items separated by commas to the end of the row, `limit` items at most. The last item
may have a comma behind it. -/
def bareItems {α : Type} (item : Rule α) : Nat → Rule (List α)
  | 0 => return []
  | limit + 1 => do
    if (← get).isExhausted then return []
    else
      let first ← item
      if (← operator?) = some .comma then
        let _ ← take "mo"
      else finish
      return first :: (← bareItems item limit)

/-- Reads items separated by commas to the end of the row. -/
def bare {α : Type} (item : Rule α) : Rule (List α) := do bareItems item (← get).remaining

/-- `parse_list`: reads a list that fills the row: in brackets that close at its end, or bare. A row
such as `(a + b)(c + d)` also begins with a bracket and is read as a bare list. -/
def list {α : Type} (item : Rule α) : Rule (List α) := fun row =>
  match row.operator? with
  | some (.opening bracket) =>
    match bracketed bracket item row with
    | .ok items row' => if row'.isExhausted then .ok items row' else bare item row
    | .error _ _ => bare item row
  | _ => bare item row

/-- Reads each element as an item of its own to the end of the row, `limit` elements at most; commas
between them are passed over. -/
def fencedItems {α : Type} (item : Rule α) : Nat → Rule (List α)
  | 0 => return []
  | limit + 1 => do
    if (← get).isExhausted then return []
    else if (← operator?) = some .comma then
      let _ ← take "mo"
      fencedItems item limit
    else
      let window ← takeWindow
      let first ← within window (whole item)
      return first :: (← fencedItems item limit)

/-- Reads each element as an item of its own to the end of the row. -/
def fenced {α : Type} (item : Rule α) : Rule (List α) := do fencedItems item (← get).remaining

end Rule

/-- The row at the heart of nested groups. -/
structure Core where
  row : Row
  /-- Whether the row is the inside of an `mfenced` element. -/
  isFenced : Bool

/-- `unnest`: strips the groups around an element, as long as each holds a single element. -/
def Markup.Element.core (owner : Option Nat) : Element → Core
  | ⟨"mrow", _, line, [child]⟩ => child.core line
  | ⟨"mrow", _, line, children⟩ => ⟨Row.ofList children line, false⟩
  | ⟨"mfenced", _, line, [child]⟩ => child.core line
  | ⟨"mfenced", _, line, children⟩ => ⟨Row.ofList children line, true⟩
  | element => ⟨Row.ofList [element] owner, false⟩

/-- `parse_group_list`: reads one element and the list that it holds. -/
def Rule.listElement {α : Type} (item : Rule α) : Rule (List α) := fun row =>
  match row.rest with
  | [] => .error (.malformed .endOfGroup row.owner) row
  | element :: _ =>
    let core := element.core element.line
    Rule.within core.row (if core.isFenced then Rule.fenced item else Rule.list item) row.advance

end FormulaSheet
