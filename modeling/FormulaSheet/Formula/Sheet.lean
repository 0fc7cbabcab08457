import FormulaSheet.Formula.Grammar

/-!
Sheets of statements. Each `math` element is a statement: an assignment, a definition of a
function, or an expression. A sheet is read strictly, where the first fault ends the reading, or
tolerantly, where faulty statements are left out and their faults are listed.
-/

namespace FormulaSheet

open Markup (Element)

namespace Grammar

open Rule

/-- Refuses the circle constant and repeated names among the parameters of a function. -/
def checkParameters (name : String) (line : Option Nat) (seen : List String) :
    List String → Except Fault Unit
  | [] => .ok ()
  | parameter :: rest =>
    if parameter = piName then .error (.malformed .constantParameter line)
    else if parameter ∈ seen then .error (.malformed (.duplicateParameter parameter name) line)
    else checkParameters name line (parameter :: seen) rest

/-- Reads the name and the parameters of a function; `line` is the line of the whole head. -/
def head (line : Option Nat) : Rule (String × List String) := do
  let name ← identifier
  if (Builtin.ofName? name).isSome ∨ name = piName then complain (.redeclaredBuiltin name) line
  else if (← operator?) = some .application then
    let _ ← take "mo"
    let parameters ←
      if (← get).remaining = 1 then listElement identifier else Rule.list identifier
    match checkParameters name line [] parameters with
    | .ok _ => return (name, parameters)
    | .error fault => throw fault
  else complain (.missingParameters name) (← get).line

/-- `parse_fn_declaration`: reads the definition of a function, whose head is one group. -/
def definition (element : Element) : Rule Formula := do
  modify Row.advance
  let (name, parameters) ← within (Row.ofChildren element) (head element.line)
  let _ ← take "mo"
  return .definition name parameters (← expression)

/-- Reads an assignment. -/
def assignment (element : Element) : Rule Formula := do
  let name ← identifier
  if name = piName then complain .assignedConstant element.line
  else
    let _ ← take "mo"
    return .assignment name (← expression)

/-- `parse_declaration`: reads an assignment or a definition. -/
def declaration : Rule Formula := do
  match (← get).rest with
  | [] => throw (.internal .declarationOfNothing)
  | element :: _ =>
    match element.name with
    | "mi" | "mtext" => assignment element
    | "mrow" => definition element
    | tag => complain (.unassignable tag) element.line

/-- Reads the body of a statement. It is a declaration if its second element is an equals sign. -/
def body : Rule Formula := do
  if ((← get).following?.bind Element.operator?) = some .equals then declaration else expression

end Grammar

/-- The row of a statement. A group that holds the whole statement is stripped. -/
def Markup.Element.statementRow : Element → Row
  | ⟨_, _, _, [⟨"mrow", value, line, children⟩]⟩ =>
    Markup.Element.statementRow ⟨"mrow", value, line, children⟩
  | ⟨_, _, line, children⟩ => Row.ofList children line

/-- `parse_statement`: the statement that an element holds. -/
def Statement.ofElement (element : Element) : Except Fault Statement :=
  if element.name = "math" then
    match Rule.whole Grammar.body element.statementRow with
    | .ok body _ => .ok ⟨body, element.line⟩
    | .error fault _ => .error fault
  else .error (.malformed (.expectedTag "math" element.name) element.line)

namespace Sheet

/-- The elements that should hold statements. A `math` root holds a single one. -/
def containers (root : Element) : List Element :=
  if root.name = "math" then [root] else root.children

/-- The statement of a container. A fault without a line belongs to the line of the container. -/
def statementOf (container : Element) : Except Fault Statement :=
  (Statement.ofElement container).mapError (·.orLine container.line)

/-- All statements, or the first fault. -/
def strict : List Element → Except Fault (List Statement)
  | [] => .ok []
  | container :: rest =>
    match statementOf container with
    | .error fault => .error fault
    | .ok statement => (strict rest).map (statement :: ·)

/-- What tolerant reading gives. -/
structure Outcome where
  statements : List Statement
  /-- The faults of the statements left out. -/
  skipped : List Fault

/-- The statements without fault, and the faults of the others. -/
def tolerant : List Element → Outcome
  | [] => ⟨[], []⟩
  | container :: rest =>
    let outcome := tolerant rest
    match statementOf container with
    | .ok statement => { outcome with statements := statement :: outcome.statements }
    | .error fault => { outcome with skipped := fault :: outcome.skipped }

/-- `parse_statement_list`: reads the statements below a root. -/
def ofElement (skipFaulty : Bool) (root : Element) : Except Fault Outcome :=
  if skipFaulty then .ok (tolerant (containers root))
  else (strict (containers root)).map (⟨·, []⟩)

/-- `parse_program`: reads the statements of a markup text. -/
def ofText (skipFaulty : Bool) (text : String) : Except Fault Outcome :=
  match Element.ofText text with
  | .ok root => ofElement skipFaulty root
  | .error fault => .error fault

end Sheet

end FormulaSheet
