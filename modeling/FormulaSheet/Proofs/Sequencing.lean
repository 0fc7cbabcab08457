/-! Computations one after the other. A computation that comes to its end hands its value, and the state as it leaves
it, to the next one; a fault ends both. The rules of the grammar, the steps of a program and those of lowering are all
put together so. -/
namespace FormulaSheet.Sequencing

section State

variable {ε σ α β : Type} {run : EStateM ε σ α} {next : α → EStateM ε σ β}

theorem bind_of_ok (ran : run state = .ok value after) : (run >>= next) state = next value after := by
  change EStateM.bind run next state = _
  rw [EStateM.bind, ran]

theorem bind_of_error (ran : run state = .error fault after) : (run >>= next) state = .error fault after := by
  change EStateM.bind run next state = _
  rw [EStateM.bind, ran]

theorem bind_ok (ran : (run >>= next) state = .ok result after) :
    ∃ value middle, run state = .ok value middle ∧ next value middle = .ok result after := by
  cases first : run state with
  | ok value middle =>
    rw [bind_of_ok first] at ran
    exact ⟨value, middle, rfl, ran⟩
  | error fault middle =>
    rw [bind_of_error first] at ran
    cases ran

end State

section Except

variable {ε α β : Type} {first : Except ε α} {next : α → Except ε β}

theorem except_bind_ok (ran : (first >>= next) = .ok result) :
    ∃ value, first = .ok value ∧ next value = .ok result := by
  cases first with
  | error fault => cases ran
  | ok value => exact ⟨value, rfl, ran⟩

theorem except_bind_error (failed : (first >>= next) = .error fault) :
    first = .error fault ∨ ∃ value, first = .ok value ∧ next value = .error fault := by
  cases first with
  | error other => cases failed; exact .inl rfl
  | ok value => exact .inr ⟨value, rfl, failed⟩

end Except

end FormulaSheet.Sequencing
