import FormulaSheet.Compilation
import FormulaSheet.Proofs.FaultLines

/-! Tolerant reading is strict reading without the containers that are refused. Both go through the same
containers; what one container gives does not depend on the others, and its fault names a line already, so the
line of the container is never needed. The two ways of reading are therefore two views of the same two lists:
the statements that are accepted and the faults of the others. -/
namespace FormulaSheet.TolerantReading
open Markup (Element)

/-- The statement that a container holds. -/
def accepted? (container : Element) : Option Statement :=
  match Statement.ofElement container with
  | .ok statement => some statement
  | .error _ => none

/-- The fault of a container that holds no statement. -/
def refusal? (container : Element) : Option Fault :=
  match Statement.ofElement container with
  | .ok _ => none
  | .error fault => some fault

/-- The fault of a container has a line, and keeps it. -/
theorem statementOf_eq (container : Element) : Sheet.statementOf container = Statement.ofElement container := by
  unfold Sheet.statementOf
  cases read : Statement.ofElement container with
  | ok statement => rfl
  | error fault =>
    obtain ⟨-, line, -, known⟩ := FaultLines.statement_fault_line read
    change Except.error (fault.orLine container.line) = .error fault
    rw [Fault.orLine_of_line _ known]

private theorem tolerant_eq (containers : List Element) :
    Sheet.tolerant containers = ⟨containers.filterMap accepted?, containers.filterMap refusal?⟩ := by
  induction containers with
  | nil => rfl
  | cons container rest ih =>
    rw [Sheet.tolerant, ih, statementOf_eq]
    cases read : Statement.ofElement container <;> simp [accepted?, refusal?, read]

/-- Strict reading gives the accepted statements if nothing is refused, and the first fault otherwise. -/
theorem strict_eq (containers : List Element) :
    Sheet.strict containers =
      match containers.filterMap refusal? with
      | [] => .ok (containers.filterMap accepted?)
      | fault :: _ => .error fault := by
  induction containers with
  | nil => rfl
  | cons container rest ih =>
    rw [Sheet.strict, statementOf_eq]
    cases read : Statement.ofElement container with
    | error fault => simp [refusal?, read]
    | ok statement =>
      simp only [ih, List.filterMap_cons, refusal?, accepted?, read]
      cases rest.filterMap refusal? <;> rfl

theorem ofElement_tolerant (root : Element) :
    Sheet.ofElement true root =
      .ok ⟨(Sheet.containers root).filterMap accepted?, (Sheet.containers root).filterMap refusal?⟩ := by
  simp [Sheet.ofElement, tolerant_eq]

theorem ofElement_strict (root : Element) :
    Sheet.ofElement false root =
      match (Sheet.containers root).filterMap refusal? with
      | [] => .ok ⟨(Sheet.containers root).filterMap accepted?, []⟩
      | fault :: _ => .error fault := by
  simp only [Sheet.ofElement, strict_eq]
  cases (Sheet.containers root).filterMap refusal? <;> rfl

end FormulaSheet.TolerantReading
