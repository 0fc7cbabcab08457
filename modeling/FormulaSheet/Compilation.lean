import FormulaSheet.Formula.Sheet
import FormulaSheet.Lowering
import FormulaSheet.Scope.Resolution
import FormulaSheet.Settings.Basic
import FormulaSheet.Target.Machine

/-!
From markup to a program, its source text or its output.
-/

namespace FormulaSheet

/-- A sheet lowered to a program. -/
structure Compilation where
  program : Target.Program
  /-- The names that the program asks for, in the order of their first use. -/
  freeVariables : List String
  /-- The faults of statements left out. -/
  skipped : List Fault

/-- Compiles a markup text. -/
def compile (settings : Settings) (markup : String) : Except Fault Compilation := do
  let sheet ← Sheet.ofText settings.ignoreErrors markup
  let resolution := Resolution.ofStatements settings.naming sheet.statements
  match resolution.fault with
  | some fault => throw fault
  | none =>
    let empty : Target.Program :=
      { namespaceName := settings.namespaceName, className := settings.className }
    let lowering ← Lowering.statements settings.naming ⟨empty, {}⟩ sheet.statements
    return ⟨lowering.program, resolution.freeVariables, sheet.skipped⟩

/-- `transpile`: the source text for a markup text. -/
def sourceOf (settings : Settings) (markup : String) : Except Fault String := do
  return settings.language.source (← compile settings markup).program

/-- `interpret`: the output for a markup text on lines of input. -/
def outputOf (settings : Settings) (markup : String) (input : List String) :
    Except Fault Target.Outcome := do
  return (← compile settings markup).program.run input

end FormulaSheet
