import FormulaSheet.Target.Listing

/-!
Programs as C# source.
-/

namespace FormulaSheet.Target.CSharp

def typeName : Ty → String
  | .long => "long"
  | .double => "double"

/-- How a character is written in a string literal. -/
def literalChar (c : Char) : List Char :=
  if c = '"' then ['\\', '"']
  else if c = '\\' then ['\\', '\\']
  else if c = '\n' then ['\\', 'n']
  else if c = '\r' then ['\\', 'r']
  else if c = '\t' then ['\\', 't']
  else [c]

/-- `string_literal`: a text between quotes, with escapes. -/
def stringLiteral (text : String) : String :=
  String.ofList ('"' :: (text.toList.flatMap literalChar ++ ['"']))

def dialect : Dialect where
  string := stringLiteral
  cast ty operand := "(" ++ typeName ty ++ ")" ++ operand.enclosed 4

/-- Lines between braces behind a heading. -/
def block (heading : String) (lines : List String) : List String :=
  [heading, "\x7b"] ++ indented lines ++ ["\x7d"]

def action : Action → String
  | .line text => "Console.WriteLine(" ++ stringLiteral text ++ ");"
  | .value label value =>
    "Console.WriteLine(string.Format(CultureInfo.InvariantCulture, " ++
      stringLiteral (valueFormat label) ++ ", " ++ value.text dialect ++ "));"

def field (field : Field) : String :=
  "static readonly " ++ typeName field.ty ++ " " ++ field.name ++ ";"

/-- `static_constructor`: the routine that sets the fields, which runs before the main routine. -/
def constructor (program : Program) : List String :=
  block ("static " ++ program.className ++ "()")
    (program.fields.map fun field => field.name ++ " = " ++ field.init ++ "();")

def function (function : Function) : List String :=
  let parameters := String.intercalate ", " (function.parameters.map ("double " ++ ·))
  block ("static " ++ typeName function.result ++ " " ++ function.name ++ "(" ++ parameters ++ ")")
    ["return " ++ function.body.text dialect ++ ";"]

def readNumberLoop : List String :=
  ["Console.Write(name + \" = \");",
    "string line = Console.ReadLine();"] ++
  block "if (line == null)" ["throw new InvalidOperationException(\"No input for \" + name);"] ++
  ["double value;"] ++
  block ("if (double.TryParse(line.Trim().Replace(',', '.'), NumberStyles.Float, " ++
      "CultureInfo.InvariantCulture, out value))")
    ["return value;"] ++
  ["Console.WriteLine(\"Invalid number, try again.\");"]

/-- `runtime_helper`: a function that the program brings along. -/
def helper (helper : Helper) : List String :=
  match helper.reciprocalOf? with
  | some function =>
    block ("static double " ++ helper.name ++ "(double x)")
      ["return 1.0 / Math." ++ function ++ "(x);"]
  | none =>
    match helper with
    | .nthRoot =>
      block "static double NthRoot(double x, double n)" ["return Math.Pow(x, 1.0 / n);"]
    | .readNumber =>
      block "static double ReadNumber(string name)" (block "while (true)" readNumberLoop)
    | _ => []

def members (program : Program) : List String :=
  program.fields.map field ++
  (if program.fields.isEmpty then [] else "" :: spaced [constructor program]) ++
  spaced (program.functions.map function) ++
  spaced (program.helpers.map helper) ++
  block "static void Main()" (program.main.map action)

/-- `emit_source`: the source of a program. -/
def source (program : Program) : String :=
  listing <|
    ["using System;", "using System.Globalization;", ""] ++
    block ("namespace " ++ program.namespaceName)
      (block ("public static class " ++ program.className) (members program))

end FormulaSheet.Target.CSharp
