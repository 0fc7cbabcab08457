import FormulaSheet.Target.CSharp
import FormulaSheet.Target.VisualBasic

/-!
The languages that programs can be written in.
-/

namespace FormulaSheet.Target

inductive Language where
  | csharp
  | visualBasic
  deriving DecidableEq, Repr

namespace Language

def name : Language → String
  | .csharp => "CSharp"
  | .visualBasic => "VisualBasic"

def ofName? : String → Option Language
  | "CSharp" => some .csharp
  | "VisualBasic" => some .visualBasic
  | _ => none

/-- `file_extension`: the usual extension of source files. -/
def fileExtension : Language → String
  | .csharp => "cs"
  | .visualBasic => "vb"

/-- The source of a program. -/
def source : Language → Program → String
  | .csharp => CSharp.source
  | .visualBasic => VisualBasic.source

end Language

end FormulaSheet.Target
