import FormulaSheet.Target.Listing

/-!
Programs as Visual Basic source.
-/

namespace FormulaSheet.Target.VisualBasic

def typeName : Ty → String
  | .long => "Long"
  | .double => "Double"

/-- The lines of a text: what lies between its newlines. -/
def textLines : List Char → List (List Char)
  | [] => [[]]
  | c :: cs =>
    if c = '\n' then [] :: textLines cs
    else
      match textLines cs with
      | [] => [[c]]
      | line :: rest => (c :: line) :: rest

/-- A line in quotes; a quote inside it is doubled. -/
def quotedLine (line : List Char) : String :=
  String.ofList ('"' :: (line.flatMap (fun c => if c = '"' then ['"', '"'] else [c]) ++ ['"']))

/-- `string_literal`: a string literal holds no newline: the lines are joined by the constant for
one. -/
def stringLiteral (text : String) : String :=
  String.intercalate " & vbLf & " ((textLines text.toList).map quotedLine)

def dialect : Dialect where
  string := stringLiteral
  cast ty operand :=
    match ty with
    | .double => "CDbl(" ++ operand.text ++ ")"
    | .long => "CLng(" ++ operand.text ++ ")"

/-- Lines between a heading and its end. -/
def block (heading : String) (lines : List String) (ending : String) : List String :=
  [heading] ++ indented lines ++ [ending]

def action : Action → String
  | .line text => "Console.WriteLine(" ++ stringLiteral text ++ ")"
  | .value label value =>
    "Console.WriteLine(String.Format(CultureInfo.InvariantCulture, " ++
      stringLiteral (valueFormat label) ++ ", " ++ value.text dialect ++ "))"

def field (field : Field) : String :=
  "Private Shared ReadOnly " ++ field.name ++ " As " ++ typeName field.ty

/-- `shared_constructor`: the routine that sets the fields, which runs before the main routine. -/
def constructor (program : Program) : List String :=
  block "Shared Sub New()"
    (program.fields.map fun field => field.name ++ " = " ++ field.init ++ "()") "End Sub"

/-- A function that returns one value. -/
def functionBlock (name parameters result : String) (lines : List String) : List String :=
  block ("Private Shared Function " ++ name ++ "(" ++ parameters ++ ") As " ++ result) lines
    "End Function"

def function (function : Function) : List String :=
  functionBlock function.name
    (String.intercalate ", " (function.parameters.map fun name => "ByVal " ++ name ++ " As Double"))
    (typeName function.result) ["Return " ++ function.body.text dialect]

def readNumberLoop : List String :=
  ["Console.Write(name & \" = \")",
    "Dim line As String = Console.ReadLine()"] ++
  block "If line Is Nothing Then"
    ["Throw New InvalidOperationException(\"No input for \" & name)"] "End If" ++
  ["Dim value As Double"] ++
  block ("If Double.TryParse(line.Trim().Replace(\",\"c, \".\"c), NumberStyles.Float, " ++
      "CultureInfo.InvariantCulture, value) Then")
    ["Return value"] "End If" ++
  ["Console.WriteLine(\"Invalid number, try again.\")"]

/-- `runtime_helper`: a function that the program brings along. -/
def helper (helper : Helper) : List String :=
  match helper.reciprocalOf? with
  | some function =>
    functionBlock helper.name "ByVal x As Double" "Double"
      ["Return 1.0 / Math." ++ function ++ "(x)"]
  | none =>
    match helper with
    | .nthRoot =>
      functionBlock "NthRoot" "ByVal x As Double, ByVal n As Double" "Double"
        ["Return Math.Pow(x, 1.0 / n)"]
    | .readNumber =>
      functionBlock "ReadNumber" "ByVal name As String" "Double"
        (block "Do" readNumberLoop "Loop")
    | _ => []

def members (program : Program) : List String :=
  program.fields.map field ++
  (if program.fields.isEmpty then [] else "" :: spaced [constructor program]) ++
  spaced (program.functions.map function) ++
  spaced (program.helpers.map helper) ++
  block "Public Shared Sub Main()" (program.main.map action) "End Sub"

/-- `emit_source`: the source of a program. -/
def source (program : Program) : String :=
  listing <|
    ["Imports System", "Imports System.Globalization", ""] ++
    block ("Namespace " ++ program.namespaceName)
      (block ("Public Class " ++ program.className) (members program) "End Class") "End Namespace"

end FormulaSheet.Target.VisualBasic
