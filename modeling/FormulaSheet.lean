import FormulaSheet.Bindings
import FormulaSheet.CommandLine.Directory
import FormulaSheet.CommandLine.FileFault
import FormulaSheet.CommandLine.Path
import FormulaSheet.CommandLine.Request
import FormulaSheet.CommandLine.Session
import FormulaSheet.Compilation
import FormulaSheet.Decimal.Digits
import FormulaSheet.Decimal.Layout
import FormulaSheet.Decimal.Reading
import FormulaSheet.Decimal.Shortest
import FormulaSheet.Fault
import FormulaSheet.Formula.Basic
import FormulaSheet.Formula.Grammar
import FormulaSheet.Formula.Lists
import FormulaSheet.Formula.Number
import FormulaSheet.Formula.Operator
import FormulaSheet.Formula.Printer
import FormulaSheet.Formula.Row
import FormulaSheet.Formula.Sheet
import FormulaSheet.Lowering
import FormulaSheet.Main
import FormulaSheet.Markup.Element
import FormulaSheet.Markup.Reference
import FormulaSheet.Markup.Token
import FormulaSheet.Scope.Naming
import FormulaSheet.Scope.Resolution
import FormulaSheet.Scope.Table
import FormulaSheet.Settings.Basic
import FormulaSheet.Settings.Json
import FormulaSheet.Target.CSharp
import FormulaSheet.Target.Language
import FormulaSheet.Target.Listing
import FormulaSheet.Target.Machine
import FormulaSheet.Target.Program
import FormulaSheet.Target.Value
import FormulaSheet.Target.VisualBasic
import FormulaSheet.Text.Blank
import FormulaSheet.Text.LineTable
import FormulaSheet.Text.Operand
import FormulaSheet.Text.Quoted
import FormulaSheet.Text.Shown
import FormulaSheet.Proofs.LoweringSteps
import FormulaSheet.Proofs.ResolutionAgreement
import FormulaSheet.Proofs.GeneratedNames
import FormulaSheet.Proofs.RunOutcomes
import FormulaSheet.Proofs.RunSafety
import FormulaSheet.Proofs.FormulaSimulation
import FormulaSheet.Proofs.LoweringCorrectness
import FormulaSheet.Proofs.CallOrder
import FormulaSheet.Proofs.StaticTypes
import FormulaSheet.Proofs.FormulaReading
import FormulaSheet.Proofs.ReadingConservation
import FormulaSheet.Proofs.RenderedFormulas
import FormulaSheet.Proofs.LineNumbers
import FormulaSheet.Proofs.Numerals
import FormulaSheet.Proofs.CharacterReferences
import FormulaSheet.Proofs.TokenSpans
import FormulaSheet.Proofs.WrittenMarkup
import FormulaSheet.Proofs.FaultLines
import FormulaSheet.Proofs.TolerantReading
import FormulaSheet.Proofs.IntegerSheets
import FormulaSheet.Proofs.FloatParts
import FormulaSheet.Proofs.ShortestDecimals
import FormulaSheet.Proofs.DecimalLiterals
import FormulaSheet.Proofs.SourceExpressions
import FormulaSheet.Proofs.SourceScanning
import FormulaSheet.Proofs.EmittedExpressions
import FormulaSheet.Proofs.LoweringInPlace
import FormulaSheet.Proofs.NestedMarkup
import FormulaSheet.Proofs.StatementFaults
import FormulaSheet.Proofs.WellFormedSheets
import FormulaSheet.Proofs.LongerInput
import FormulaSheet.Proofs.NestingDepth
import FormulaSheet.Proofs.ReadingLocality
import FormulaSheet.Proofs.TermFold
import FormulaSheet.Proofs.ListSpellings
import FormulaSheet.Proofs.UnambiguousTexts
import FormulaSheet.Proofs.BracketBalance
import FormulaSheet.Proofs.StringLiterals
import FormulaSheet.Proofs.SkippedComments
import FormulaSheet.Proofs.IntegerLiterals
import FormulaSheet.Proofs.LimitedReading
import FormulaSheet.Proofs.ReadingProgress
