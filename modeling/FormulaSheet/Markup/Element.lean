import FormulaSheet.Fault
import FormulaSheet.Markup.Token
import FormulaSheet.Text.LineTable

/-!
The tree of elements that a markup text describes. Tokens are taken one at a time by a `Builder`,
which keeps the elements that are still open, innermost first; an end tag closes the innermost one
and hands it, with its text, to the element around it.
-/

namespace FormulaSheet.Markup

/-- An element of a markup tree. -/
structure Element where
  /-- The name without its namespace. -/
  name : String
  /-- The text of the whole subtree in document order, without the blanks around it. -/
  value : String
  /-- The line of the start tag, counted from 1. -/
  line : Nat
  children : List Element
  deriving Repr

/-- An element whose end tag has not come yet. -/
structure OpenElement where
  /-- The name as it is written, namespace included. -/
  qualifiedName : String
  line : Nat
  /-- The text of the subtree so far. -/
  text : String := ""
  /-- The children so far, the latest first. -/
  children : List Element := []

/-- `local_name`: the part of a name behind its last colon. -/
def localName (qualifiedName : String) : String :=
  String.ofList ((qualifiedName.toList.reverse.takeWhile (· ≠ ':')).reverse)

/-- The element with what it holds so far. -/
def OpenElement.close (opened : OpenElement) : Element where
  name := localName opened.qualifiedName
  value := Text.trimmed opened.text
  line := opened.line
  children := opened.children.reverse

/-- The state of building a tree. -/
structure Builder where
  /-- The elements still open, innermost first. -/
  opened : List OpenElement := []
  root : Option Element := none

namespace Builder

/-- Hands a finished element to the one around it, or makes it the root. -/
def finish (inner : OpenElement) (outer : List OpenElement) (root : Option Element) : Builder :=
  match outer with
  | [] => { opened := [], root := some inner.close }
  | parent :: rest =>
    { opened := { parent with
        text := parent.text ++ inner.text
        children := inner.close :: parent.children } :: rest
      root }

/-- One round of `parse_markup`: takes one token that stands on `line`. -/
def step (builder : Builder) (token : Token) (line : Nat) : Except Fault Builder :=
  match token with
  | .startTag name selfClosing =>
    match builder.root with
    | some _ => .error (.malformed (.startAfterRoot name) line)
    | none =>
      let element : OpenElement := { qualifiedName := name, line }
      if selfClosing then .ok (finish element builder.opened builder.root)
      else .ok { builder with opened := element :: builder.opened }
  | .endTag name =>
    match builder.opened with
    | [] => .error (.malformed (.strayEnd name) line)
    | inner :: outer =>
      if inner.qualifiedName = name then .ok (finish inner outer builder.root)
      else .error (.malformed (.mismatchedEnd name inner.qualifiedName) line)
  | .text content =>
    match builder.opened with
    | inner :: outer =>
      .ok { builder with opened := { inner with text := inner.text ++ content } :: outer }
    | [] =>
      if content.toList.all Text.isBlank then .ok builder
      else .error (.malformed .textOutsideRoot line)
  | .error slice => .error (.malformed (.malformedMarkup slice) line)

/-- Takes tokens one after the other; the first fault ends it. -/
def run (lines : Text.LineTable) (builder : Builder) : List Lexeme → Except Fault Builder
  | [] => .ok builder
  | lexeme :: rest =>
    match builder.step lexeme.token (lines.lineAt lexeme.start) with
    | .ok next => run lines next rest
    | .error fault => .error fault

/-- The root, once no token is left. -/
def result (builder : Builder) : Except Fault Element :=
  match builder.opened, builder.root with
  | inner :: _, _ => .error (.malformed (.unclosed inner.qualifiedName) inner.line)
  | [], some root => .ok root
  | [], none => .error (.malformed .noRoot none)

end Builder

/-- `parse_markup`: the root element of a markup text. -/
def Element.ofText (text : String) : Except Fault Element :=
  match Builder.run (Text.LineTable.ofText text) {} (scan text) with
  | .ok builder => builder.result
  | .error fault => .error fault

end FormulaSheet.Markup
