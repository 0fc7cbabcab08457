import FormulaSheet.Proofs.TolerantReading

/-! Where the faults of a statement point, and which branches of the reader are never taken. A refused statement
has a fault on one of its own lines, so nothing has to be added to it. The branches for an element that is not there
exist only for callers that hold a row of their own: the reader goes inside an element, or declares something, only
where it has seen an element. This is said by putting anything else into these branches, which changes nothing. -/
namespace FormulaSheet.StatementFaults
open Markup (Element)
open Rule Grammar FaultLines

/-! ## Going inside an element, with anything in the branch for a missing one -/

/-- The children of the next element, or what `guard` gives where there is none. -/
def childrenOr (guard : Except Fault Row) (row : Row) : Except Fault Row :=
  if row.isExhausted then guard else row.children

/-- Looks inside the next element without reading it. -/
def inside (guard : Except Fault Row) : Rule Row := fun row =>
  match childrenOr guard row with
  | .ok inner => .ok inner row
  | .error fault => .error fault row

def guardedGroup (guard : Except Fault Row) (factor : Rule Formula) : Rule Formula := do
  let inner ← inside guard
  modify Row.advance
  if inner.isExhausted then return .empty
  else within inner (whole (expressionWith factor))

def guardedSquareRoot (guard : Except Fault Row) (factor : Rule Formula) : Rule Formula := do
  let line := (← get).line
  let inner ← inside guard
  modify Row.advance
  if inner.isExhausted then throw (.arity "<msqrt>" 1 0 line)
  else
    let radicand ← within inner (whole (expressionWith factor))
    return .call "sqrt" [radicand]

def guardedPair (guard : Except Fault Row) (expression : Rule Formula) (tag : String) :
    Rule (Formula × Formula) := do
  let line := (← get).line
  let construct := s!"<{tag}>"
  let inner ← inside guard
  modify Row.advance
  if inner.size = 2 then
    within inner do
      let first ← operandWith expression construct
      let second ← operandWith expression construct
      return (first, second)
  else throw (.arity construct 2 inner.size line)

/-- The rule for a factor, with a guard wherever it goes inside an element. -/
def guardedFactor (guard : Except Fault Row) (factor : Rule Formula) : Rule Formula := do
  let tag := (← get).current?.map Element.name
  if tag = some "mrow" ∨ tag = some "mfenced" then guardedGroup guard factor
  else if tag = some "mfrac" then
    let (numerator, denominator) ← guardedPair guard (expressionWith factor) "mfrac"
    return .binary .div numerator denominator
  else if tag = some "msup" then
    let (base, exponent) ← guardedPair guard (expressionWith factor) "msup"
    return .call "pow" [base, exponent]
  else if tag = some "mroot" then
    let (radicand, index) ← guardedPair guard (expressionWith factor) "mroot"
    return .call "root" [radicand, index]
  else if tag = some "msqrt" then guardedSquareRoot guard factor
  else factorWith factor

def guardedDefinition (guard : Except Fault Row) : Rule Formula := do
  let inner ← inside guard
  let line := (← get).line
  modify Row.advance
  let (name, parameters) ← within inner (head line)
  let _ ← take "mo"
  return .definition name parameters (← expression)

/-- The rule for the body of a statement, with a guard where it goes inside the head of a function and another rule
for a declaration of nothing. -/
def guardedBody (guard : Except Fault Row) (nothing : Rule Formula) : Rule Formula := do
  let row ← get
  if row.following?.bind Element.operator? = some .equals then
    if row.isExhausted then nothing
    else if row.current?.map Element.name = some "mrow" then guardedDefinition guard
    else declaration
  else expression

/-- Goes inside single groups, one after the other, to the row of a statement. -/
def unwrapped (guard : Except Fault Row) : Nat → Row → Except Fault Row
  | 0, _ => .error (.internal .nestingLimit)
  | limit + 1, row =>
    if row.size = 1 ∧ row.current?.map Element.name = some "mrow" then
      (childrenOr guard row).bind (unwrapped guard limit)
    else .ok row

/-- Goes inside single groups, one after the other, to the row at their heart. -/
def unnested (guard : Except Fault Row) : Nat → Row → Except Fault Core
  | 0, _ => .error (.internal .nestingLimit)
  | limit + 1, row =>
    if row.remaining = 1 ∧ row.current?.map Element.name = some "mrow" then
      (childrenOr guard row).bind (unnested guard limit)
    else if row.remaining = 1 ∧ row.current?.map Element.name = some "mfenced" then
      (childrenOr guard row).bind fun inner =>
        if inner.size = 1 then unnested guard limit inner else .ok ⟨inner, true⟩
    else .ok ⟨row, false⟩

/-- The branch that `Row.children` itself has. -/
theorem childrenOr_internal (row : Row) : childrenOr (.error (.internal .childrenOfNothing)) row = row.children := by
  cases shape : row.rest <;> simp [childrenOr, Row.children, Row.isExhausted, shape]

section Guards

variable {guard : Except Fault Row} {factor : Rule Formula}

/-! An element that comes next has been seen, and no guard is asked for its children. -/

section Next

variable (taken : Nat) (element : Element) (rest : List Element) (owner : Option Nat)

private theorem inside_next {β : Type} (next : Row → Rule β) :
    (inside guard >>= next) ⟨taken, element :: rest, owner⟩ =
      next (Row.ofChildren element) ⟨taken, element :: rest, owner⟩ :=
  rfl

private theorem guardedGroup_next :
    guardedGroup guard factor ⟨taken, element :: rest, owner⟩ =
      groupWith factor element ⟨taken, element :: rest, owner⟩ := by
  rw [guardedGroup, inside_next]
  rfl

private theorem guardedSquareRoot_next :
    guardedSquareRoot guard factor ⟨taken, element :: rest, owner⟩ =
      squareRootWith factor element ⟨taken, element :: rest, owner⟩ := by
  rw [guardedSquareRoot, FormulaReading.get_bind, inside_next]
  rfl

private theorem guardedPair_next (expression : Rule Formula) :
    guardedPair guard expression element.name ⟨taken, element :: rest, owner⟩ =
      pairWith expression element ⟨taken, element :: rest, owner⟩ := by
  have size : (Row.ofChildren element).size = element.children.length := Nat.zero_add _
  rw [guardedPair, FormulaReading.get_bind, inside_next, size]
  rfl

/-- A two-dimensional form, whatever is made of its operands. -/
theorem guardedForm_next (expression : Rule Formula) (form : Formula × Formula → Rule Formula) :
    (guardedPair guard expression element.name >>= form) ⟨taken, element :: rest, owner⟩ =
      (pairWith expression element >>= form) ⟨taken, element :: rest, owner⟩ := by
  change EStateM.bind _ form _ = EStateM.bind _ form _
  rw [EStateM.bind, EStateM.bind, guardedPair_next]

private theorem guardedDefinition_next :
    guardedDefinition guard ⟨taken, element :: rest, owner⟩ = definition element ⟨taken, element :: rest, owner⟩ := by
  rw [guardedDefinition, inside_next, FormulaReading.get_bind]
  rfl

end Next

/-- A row whose next element has a given tag. -/
theorem next_of_tag {row : Row} (found : row.current?.map Element.name = some tag) :
    ∃ taken value line children rest owner, row = ⟨taken, ⟨tag, value, line, children⟩ :: rest, owner⟩ := by
  obtain ⟨taken, front, owner⟩ := row
  cases front with
  | nil => simp [Row.current?] at found
  | cons element rest =>
    obtain ⟨name, value, line, children⟩ := element
    have named : name = tag := by simpa [Row.current?] using found
    exact ⟨taken, value, line, children, rest, owner, by rw [named]⟩

private theorem guardedFactor_eq (guard : Except Fault Row) (factor : Rule Formula) :
    guardedFactor guard factor = factorWith factor := by
  funext row
  rw [guardedFactor, FormulaReading.get_bind]
  split
  · rename_i tags
    rcases tags with tag | tag
    · obtain ⟨taken, value, line, children, rest, owner, rfl⟩ := next_of_tag tag
      exact guardedGroup_next taken ⟨"mrow", value, line, children⟩ rest owner
    · obtain ⟨taken, value, line, children, rest, owner, rfl⟩ := next_of_tag tag
      exact guardedGroup_next taken ⟨"mfenced", value, line, children⟩ rest owner
  split
  · rename_i tag
    obtain ⟨taken, value, line, children, rest, owner, rfl⟩ := next_of_tag tag
    exact guardedForm_next taken ⟨"mfrac", value, line, children⟩ rest owner _ _
  split
  · rename_i tag
    obtain ⟨taken, value, line, children, rest, owner, rfl⟩ := next_of_tag tag
    exact guardedForm_next taken ⟨"msup", value, line, children⟩ rest owner _ _
  split
  · rename_i tag
    obtain ⟨taken, value, line, children, rest, owner, rfl⟩ := next_of_tag tag
    exact guardedForm_next taken ⟨"mroot", value, line, children⟩ rest owner _ _
  split
  · rename_i tag
    obtain ⟨taken, value, line, children, rest, owner, rfl⟩ := next_of_tag tag
    exact guardedSquareRoot_next taken ⟨"msqrt", value, line, children⟩ rest owner
  · rfl

/-- Where a sign of equality comes second, something comes first. -/
theorem guardedBody_eq (guard : Except Fault Row) (nothing : Rule Formula) : guardedBody guard nothing = body := by
  funext row
  rw [guardedBody, body, FormulaReading.get_bind, FormulaReading.get_bind]
  split
  · rename_i found
    split
    · rename_i exhausted
      rw [FormulaReading.isExhausted_iff] at exhausted
      simp [Row.following?, exhausted] at found
    · split
      · rename_i tag
        obtain ⟨taken, value, line, children, rest, owner, rfl⟩ := next_of_tag tag
        exact guardedDefinition_next taken ⟨"mrow", value, line, children⟩ rest owner
      · rfl
  · rfl

/-! ## Groups around a row -/

private theorem unwrapped_eq (guard : Except Fault Row) (element : Element)
    (enough : Element.listWeight element.children ≤ limit) :
    unwrapped guard (limit + 1) (Row.ofChildren element) = .ok element.statementRow := by
  fun_induction Element.statementRow element generalizing limit with
  | case1 name text outer value line children ih =>
    simp only [Element.listWeight, RenderedFormulas.weight_eq] at enough
    obtain ⟨less, rfl⟩ : ∃ less, limit = less + 1 := ⟨limit - 1, by omega⟩
    rw [unwrapped, if_pos ⟨rfl, rfl⟩]
    exact ih (by dsimp only; omega)
  | case2 name value line children several =>
    rw [unwrapped, if_neg]
    · rfl
    · rintro ⟨single, tag⟩
      obtain ⟨taken, text, below, inner, rest, owner, shape⟩ := next_of_tag tag
      cases shape
      cases rest with
      | nil => exact several _ _ _ rfl
      | cons other more => simp [Row.size, Row.ofChildren, Row.ofList] at single

private theorem unnested_several {row : Row} (several : row.remaining ≠ 1) (limit : Nat) :
    unnested guard (limit + 1) row = .ok ⟨row, false⟩ := by
  rw [unnested, if_neg (fun only => several only.1), if_neg (fun only => several only.1)]

theorem unnested_eq (guard : Except Fault Row) (element : Element) (owner : Option Nat)
    (enough : element.weight ≤ limit) :
    unnested guard (limit + 1) (Row.ofList [element] owner) = .ok (element.core owner) := by
  fun_induction Element.core owner element generalizing limit with
  | case1 owner value line child ih =>
    simp only [RenderedFormulas.weight_eq, Element.listWeight] at enough
    obtain ⟨less, rfl⟩ : ∃ less, limit = less + 1 := ⟨limit - 1, by omega⟩
    rw [unnested, if_pos ⟨rfl, rfl⟩]
    exact ih (by rw [RenderedFormulas.weight_eq]; omega)
  | case2 owner value line children several =>
    simp only [RenderedFormulas.weight_eq] at enough
    obtain ⟨less, rfl⟩ : ∃ less, limit = less + 1 := ⟨limit - 1, by omega⟩
    rw [unnested, if_pos ⟨rfl, rfl⟩]
    exact unnested_several (fun single => (List.length_eq_one_iff.mp single).elim several) less
  | case3 owner value line child ih =>
    simp only [RenderedFormulas.weight_eq, Element.listWeight] at enough
    obtain ⟨less, rfl⟩ : ∃ less, limit = less + 1 := ⟨limit - 1, by omega⟩
    rw [unnested, if_neg (by simp [Row.current?, Row.ofList]), if_pos ⟨rfl, rfl⟩]
    exact ih (by rw [RenderedFormulas.weight_eq]; omega)
  | case4 owner value line children several =>
    have size : (Row.ofList children line).size ≠ 1 := by
      rw [Row.size, Row.ofList, Nat.zero_add]
      exact fun single => (List.length_eq_one_iff.mp single).elim several
    rw [unnested, if_neg (by simp [Row.current?, Row.ofList]), if_pos ⟨rfl, rfl⟩]
    exact if_neg size
  | case5 owner element notRow notRows notFence notFences =>
    obtain ⟨name, value, line, children⟩ := element
    rw [unnested, if_neg, if_neg]
    · rintro ⟨-, fenced⟩
      cases fenced
      exact notFences _ _ _ rfl
    · rintro ⟨-, grouped⟩
      cases grouped
      exact notRows _ _ _ rfl

end Guards

/-- **A refused statement is refused on one of its own lines.** Its fault is not an internal one and names the line of
the container or of an element below it, so the line of the container is never added to it. Nor is an internal fault
lost on the way, as when a list in brackets is given up for a bare one: whatever stood in the branch of a row without
children, or of a declaration of nothing, reading would be the same. -/
theorem refusals_point_into_the_statement (container : Element) :
    (∀ fault, Statement.ofElement container = .error fault →
      (∀ misuse, fault ≠ .internal misuse) ∧ ∃ line ∈ lines container, fault.line = some line) ∧
    Sheet.statementOf container = Statement.ofElement container ∧
    (∀ row, childrenOr (.error (.internal .childrenOfNothing)) row = row.children) ∧
    ∀ (guard : Except Fault Row) (nothing : Rule Formula),
      unwrapped guard container.weight (Row.ofChildren container) = .ok container.statementRow ∧
      guardedBody guard nothing = body ∧
      (∀ factor, guardedFactor guard factor = factorWith factor) ∧
      ∀ (element : Element) (owner : Option Nat),
        unnested guard (element.weight + 1) (Row.ofList [element] owner) = .ok (element.core owner) := by
  refine ⟨fun _ => statement_fault_line, TolerantReading.statementOf_eq container, childrenOr_internal,
    fun guard nothing => ⟨?_, guardedBody_eq guard nothing, guardedFactor_eq guard, fun element owner => ?_⟩⟩
  · rw [RenderedFormulas.weight_eq, Nat.add_comm]
    exact unwrapped_eq guard container (Nat.le_refl _)
  · exact unnested_eq guard element owner (Nat.le_refl _)

/-- A definition whose body has a power without exponent, on its third line. -/
def powerWithoutExponent : Element :=
  ⟨"math", "f\u2061x=x", 1, [
    ⟨"mrow", "f\u2061x", 2, [⟨"mi", "f", 2, []⟩, ⟨"mo", "\u2061", 2, []⟩, ⟨"mi", "x", 2, []⟩]⟩,
    ⟨"mo", "=", 2, []⟩,
    ⟨"msup", "x", 3, [⟨"mi", "x", 4, []⟩]⟩]⟩

theorem power_without_exponent_is_refused :
    ∃ fault, Statement.ofElement powerWithoutExponent = .error fault ∧ (∀ misuse, fault ≠ .internal misuse) ∧
      ∃ line ∈ lines powerWithoutExponent, fault.line = some line :=
  ⟨.arity "<msup>" 2 1 (some 3), rfl, (refusals_point_into_the_statement powerWithoutExponent).1 _ rfl⟩

end FormulaSheet.StatementFaults
