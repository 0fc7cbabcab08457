import FormulaSheet.Proofs.ReadingConservation
import FormulaSheet.Proofs.RenderedFormulas

/-! Where the rules of the grammar stop, and which lines their faults name. A rule moves forward in its row
only, succeeds behind at least as many elements as it must read, and fails with a fault on the line of the
element around the row or of an element in it. The bounds on loops and on nesting are never what stops it:
they exceed the number of elements that are left, and every step takes one. -/
namespace FormulaSheet.FaultLines
open Markup (Element)
open Rule FormulaReading Sequencing

mutual

/-- The lines of an element and of all elements below it. -/
def lines : Element → List Nat
  | ⟨_, _, line, children⟩ => line :: linesAll children

def linesAll : List Element → List Nat
  | [] => []
  | element :: rest => lines element ++ linesAll rest

end

private theorem lines_eq (element : Element) : lines element = element.line :: linesAll element.children := by
  obtain ⟨name, value, line, children⟩ := element
  rw [lines]

private theorem linesAll_append (front back : List Element) : linesAll
    (front ++ back) = linesAll front ++ linesAll back := by
  induction front with
  | nil => simp [linesAll]
  | cons element rest ih => simp [linesAll, ih]

theorem length_le_listWeight (elements : List Element) : elements.length ≤ Element.listWeight elements := by
  induction elements with
  | nil => simp [Element.listWeight]
  | cons element rest ih =>
    rw [List.length_cons, Element.listWeight, RenderedFormulas.weight_eq]
    omega

/-! ## Rows -/

/-- A row behind at least `count` more of its elements. -/
def Passed (count : Nat) (row left : Row) : Prop :=
  ∃ read, count ≤ read.length ∧ row.rest = read ++ left.rest ∧ left.taken = row.taken + read.length ∧
    left.owner = row.owner

theorem passed_nothing (row : Row) : Passed 0 row row := ⟨[], by simp⟩

theorem passed_trans (first : Passed a row middle) (second : Passed b middle left) : Passed (a + b) row left := by
  obtain ⟨read, enough, shape, taken, owner⟩ := first
  obtain ⟨more, enoughMore, shapeMore, takenMore, ownerMore⟩ := second
  refine ⟨read ++ more, ?_, ?_, ?_, ownerMore.trans owner⟩
  · simp only [List.length_append]
    omega
  · simp [shape, shapeMore]
  · simp only [List.length_append]
    omega

theorem passed_weaker (passed : Passed a row left) (less : b ≤ a) : Passed b row left := by
  obtain ⟨read, enough, rest⟩ := passed
  exact ⟨read, Nat.le_trans less enough, rest⟩

private theorem passed_advance {row : Row} (shape : row.rest = element :: rest) : Passed 1 row row.advance :=
  ⟨[element], Nat.le_refl 1, by simp [Row.advance, shape], rfl, rfl⟩

/-- A row with fewer than `bound` elements in and below it, which with the element around it stand on lines
of a given set. -/
structure Covered (on : Option Nat → Prop) (bound : Nat) (row : Row) : Prop where
  owner : on row.owner
  elements : ∀ line ∈ linesAll row.rest, on (some line)
  light : row.weight < bound

/-- Every element that is passed makes the rest of the row lighter. -/
theorem covered_behind (covered : Covered on (bound + count) row) (passed : Passed count row left) :
    Covered on bound left := by
  obtain ⟨read, enough, shape, -, owner⟩ := passed
  obtain ⟨ownerOn, elementsOn, light⟩ := covered
  refine ⟨owner ▸ ownerOn, fun line member => elementsOn line ?_, ?_⟩
  · rw [shape, linesAll_append]
    exact List.mem_append_right _ member
  · have counted := length_le_listWeight read
    rw [Row.weight, shape, RenderedFormulas.listWeight_append] at light
    rw [Row.weight]
    omega

private theorem covered_heavier (covered : Covered on a row) (less : a ≤ b) : Covered on b row :=
  ⟨covered.owner, covered.elements, Nat.lt_of_lt_of_le covered.light less⟩

theorem covered_element (covered : Covered on bound row) (shape : row.rest = element :: rest) :
    on (some element.line) ∧ Covered on bound (Row.ofElement element) ∧
      Covered on (bound - 1) (Row.ofChildren element) := by
  obtain ⟨-, elementsOn, light⟩ := covered
  rw [Row.weight, shape, Element.listWeight] at light
  rw [shape, linesAll, lines_eq] at elementsOn
  have own : on (some element.line) := elementsOn _ (by simp)
  have below : ∀ line ∈ linesAll element.children, on (some line) :=
    fun line member => elementsOn line (by simp [member])
  refine ⟨own, ⟨own, ?_, ?_⟩, own, below, ?_⟩
  · intro line member
    simp only [Row.ofElement, Row.ofList, linesAll, lines_eq, List.append_nil, List.mem_cons] at member
    rcases member with rfl | member
    · exact own
    · exact below line member
  · simp only [Row.ofElement, Row.ofList, Row.weight, Element.listWeight]
    omega
  · rw [RenderedFormulas.weight_eq] at light
    simp only [Row.ofChildren, Row.ofList, Row.weight]
    omega

/-- The line that a row gives is its next element's or the one around it. -/
theorem covered_line (covered : Covered on bound row) : on row.line := by
  unfold Row.line
  split
  · rename_i element rest shape
    exact (covered_element covered shape).1
  · exact covered.owner

/-! ## Rules -/

/-- A fault of the sheet, and not of the reader, on a line of a given set. -/
def Blames (on : Option Nat → Prop) (fault : Fault) : Prop :=
  (∀ misuse, fault ≠ .internal misuse) ∧ on fault.line

/-- What a rule may do: succeed behind at least `count` elements, or fail somewhere with a fault on one of
the lines. -/
def Behaves {α : Type} (on : Option Nat → Prop) (count : Nat) (rule : Rule α) (row : Row) : Prop :=
  match rule row with
  | .ok _ left => Passed count row left
  | .error fault left => Passed 0 row left ∧ Blames on fault

section Steps

variable {α β : Type} {rule : Rule α} {row : Row}

private theorem behaves_pure (value : α) : Behaves on 0 (pure value) row := passed_nothing row

private theorem behaves_throw (blames : Blames on fault) : Behaves on count (throw fault : Rule α) row :=
  ⟨passed_nothing row, blames⟩

private theorem behaves_complain (here : on line) : Behaves on count (complain complaint line : Rule α) row :=
  behaves_throw ⟨nofun, here⟩

private theorem behaves_any (behaves : Behaves on count rule row) : Behaves on 0 rule row := by
  unfold Behaves at behaves ⊢
  split at behaves
  · exact passed_weaker behaves (Nat.zero_le _)
  · exact behaves

/-- What is read first counts for the whole. -/
theorem behaves_bind {next : α → Rule β} (first : Behaves on count rule row)
    (rest : ∀ value left, rule row = .ok value left → Passed count row left → Behaves on 0 (next value) left) :
    Behaves on count (rule >>= next) row := by
  unfold Behaves at first ⊢
  cases ran : rule row with
  | error fault left =>
    rw [ran] at first
    rw [bind_of_error ran]
    exact first
  | ok value middle =>
    rw [ran] at first
    rw [bind_of_ok ran]
    have later := rest value middle ran first
    unfold Behaves at later
    cases ranLater : next value middle with
    | error fault left =>
      rw [ranLater] at later
      exact ⟨passed_weaker (passed_trans first later.1) (Nat.zero_le _), later.2⟩
    | ok result left =>
      rw [ranLater] at later
      exact passed_trans first later

/-- On one row, a rule can be exchanged for another that does the same there. -/
theorem behaves_congr {other : Rule α} (same : rule row = other row) (behaves : Behaves on count other row) :
    Behaves on count rule row := by
  rw [Behaves, same]
  exact behaves

/-- Looking at the row changes nothing. -/
theorem behaves_get {next : Row → Rule β} (rest : Behaves on count (next row) row) :
    Behaves on count (get >>= next) row :=
  rest

private theorem behaves_operator {next : Option Operator → Rule β} (rest : Behaves on count (next row.operator?) row) :
    Behaves on count (Rule.operator? >>= next) row :=
  rest

private theorem behaves_advance {next : Unit → Rule β} (shape : row.rest = element :: rest)
    (later : Behaves on 0 (next ()) row.advance) : Behaves on 1 (modify Row.advance >>= next) row := by
  have moved : Behaves on 1 (modify Row.advance) row := passed_advance shape
  refine behaves_bind moved fun done left ran _ => ?_
  cases ran
  exact later

theorem behaves_take (covered : Covered on bound row) : Behaves on 1 (take tag) row := by
  cases shape : row.rest with
  | nil =>
    have failed : take tag row = .error (.malformed (.endBeforeTag tag) row.owner) row := by
      rw [take, shape]
    rw [Behaves, failed]
    exact ⟨passed_nothing _, nofun, covered.owner⟩
  | cons element rest =>
    by_cases named : element.name = tag
    · have taken : take tag row = .ok element row.advance := by rw [take, shape]; exact if_pos named
      rw [Behaves, taken]
      exact passed_advance shape
    · have failed : take tag row = .error (.malformed (.expectedTag tag element.name) element.line) row := by
        rw [take, shape]
        exact if_neg named
      rw [Behaves, failed]
      exact ⟨passed_nothing _, nofun, (covered_element covered shape).1⟩

theorem behaves_takeWindow (covered : Covered on bound row) : Behaves on 1 takeWindow row := by
  cases shape : row.rest with
  | nil =>
    have failed : takeWindow row = .error (.malformed .endOfGroup row.owner) row := by rw [takeWindow, shape]
    rw [Behaves, failed]
    exact ⟨passed_nothing _, nofun, covered.owner⟩
  | cons element rest =>
    have taken : takeWindow row = .ok (Row.ofElement element) row.advance := by rw [takeWindow, shape]
    rw [Behaves, taken]
    exact passed_advance shape

theorem behaves_finish (covered : Covered on bound row) : Behaves on 0 finish row := by
  cases shape : row.rest with
  | nil =>
    have ended : finish row = .ok () row := by rw [finish, shape]
    rw [Behaves, ended]
    exact passed_nothing row
  | cons element rest =>
    have failed : finish row = .error (.malformed (.unexpected element.found) element.line) row := by
      rw [finish, shape]
    rw [Behaves, failed]
    exact ⟨passed_nothing _, nofun, (covered_element covered shape).1⟩

private theorem behaves_whole (covered : Covered on bound row) (behaves : Behaves on count rule row) :
    Behaves on count (whole rule) row := by
  refine behaves_bind behaves fun value left _ passed => ?_
  have behind := covered_behind (covered_heavier covered (Nat.le_add_right bound count)) passed
  exact behaves_bind (behaves_finish behind) fun _ _ _ _ => behaves_pure value

/-- Reading inside an element leaves the row around it alone. -/
theorem behaves_within {inner : Row} (behaves : Behaves on count rule inner) :
    Behaves on 0 (within inner rule) row := by
  unfold Behaves at behaves ⊢
  unfold within
  cases ran : rule inner with
  | ok value left => exact passed_nothing row
  | error fault left =>
    rw [ran] at behaves
    exact ⟨passed_nothing row, behaves.2⟩

theorem behaves_close (covered : Covered on bound row) : Behaves on 1 (close bracket) row := by
  refine behaves_operator ?_
  split
  · exact behaves_bind (behaves_take covered) fun _ _ _ _ => behaves_pure _
  · refine behaves_get (behaves_throw ?_)
    unfold unclosed
    split
    · exact ⟨nofun, covered.owner⟩
    · rename_i shape
      exact ⟨nofun, (covered_element covered shape).1⟩

end Steps

/-! ## Lists -/

/-- A rule that behaves on every row with fewer elements than a bound, and reads something of it. -/
def Steady {α : Type} (bound : Nat) (rule : Rule α) : Prop :=
  ∀ ⦃on row⦄, Covered on bound row → Behaves on 1 rule row

section Lists

variable {α : Type} {item : Rule α} {row : Row}

theorem length_behind (passed : Passed count row left) : left.rest.length + count ≤ row.rest.length := by
  obtain ⟨read, enough, shape, -⟩ := passed
  rw [shape, List.length_append]
  omega

theorem covered_later (covered : Covered on bound row) (passed : Passed count row left) : Covered on bound left :=
  covered_behind (covered_heavier covered (Nat.le_add_right bound count)) passed

/-- Items take an element each, so the limit outlasts the row. -/
theorem behaves_bracketedItems (steady : Steady bound item) (covered : Covered on bound row)
    (enough : row.rest.length < limit) : Behaves on 1 (bracketedItems bracket item limit) row := by
  induction limit generalizing row with
  | zero => omega
  | succ limit ih =>
    refine behaves_bind (steady covered) fun first middle _ passed => ?_
    have behind := covered_later covered passed
    refine behaves_operator ?_
    split
    · refine behaves_any (behaves_bind (behaves_take behind) fun _ left _ passedComma => ?_)
      have shorter := length_behind passed
      have shorterStill := length_behind passedComma
      have items := ih (covered_later behind passedComma) (by omega)
      exact behaves_any (behaves_bind items fun _ _ _ _ => behaves_pure _)
    · exact behaves_any (behaves_bind (behaves_close behind) fun _ _ _ _ => behaves_pure _)

private theorem behaves_bracketed (steady : Steady bound item) (covered : Covered on bound row) :
    Behaves on 1 (bracketed bracket item) row := by
  refine behaves_bind (behaves_take covered) fun _ middle _ passed => ?_
  have behind := covered_later covered passed
  refine behaves_operator ?_
  split
  · exact behaves_any (behaves_bind (behaves_take behind) fun _ _ _ _ => behaves_pure _)
  · exact behaves_get (behaves_any (behaves_bracketedItems steady behind (Nat.lt_succ_self _)))

private theorem behaves_bareItems (steady : Steady bound item) (covered : Covered on bound row) (limit : Nat) :
    Behaves on 0 (bareItems item limit) row := by
  induction limit generalizing row with
  | zero => exact behaves_pure []
  | succ limit ih =>
    refine behaves_get ?_
    split
    · exact behaves_pure []
    · refine behaves_any (behaves_bind (steady covered) fun first middle _ passed => ?_)
      have behind := covered_later covered passed
      have others {left : Row} (later : Covered on bound left) :
          Behaves on 0 (do return first :: (← bareItems item limit)) left :=
        behaves_bind (ih later) fun _ _ _ _ => behaves_pure _
      refine behaves_operator ?_
      split
      · exact behaves_any (behaves_bind (behaves_take behind) fun _ _ _ passedComma =>
          others (covered_later behind passedComma))
      · exact behaves_bind (behaves_finish behind) fun _ _ _ ended => others (covered_later behind ended)

private theorem behaves_list (steady : Steady bound item) (covered : Covered on bound row) :
    Behaves on 0 (Rule.list item) row := by
  have asBare : Behaves on 0 (bare item) row := behaves_get (behaves_bareItems steady covered _)
  have chosen : Rule.list item row = bare item row ∨
      ∃ bracket, Rule.list item row = bracketed bracket item row := by
    unfold Rule.list
    split
    · split
      · rename_i ran
        split
        · exact .inr ⟨_, ran.symm⟩
        · exact .inl rfl
      · exact .inl rfl
    · exact .inl rfl
  rcases chosen with same | ⟨bracket, same⟩
  · exact behaves_congr same asBare
  · exact behaves_congr same (behaves_any (behaves_bracketed steady covered))

private theorem behaves_fencedItems (steady : Steady bound item) (covered : Covered on bound row) (limit : Nat) :
    Behaves on 0 (fencedItems item limit) row := by
  induction limit generalizing row with
  | zero => exact behaves_pure []
  | succ limit ih =>
    refine behaves_get ?_
    split
    · exact behaves_pure []
    · refine behaves_operator ?_
      split
      · exact behaves_any (behaves_bind (behaves_take covered) fun _ _ _ passed => ih (covered_later covered passed))
      · refine behaves_any (behaves_bind (behaves_takeWindow covered) fun window left taken passed => ?_)
        obtain ⟨element, shape, rfl⟩ := takeWindow_ok taken
        have inside := (covered_element covered shape).2.1
        refine behaves_bind (behaves_within (behaves_whole inside (steady inside))) fun first same _ kept => ?_
        have behind := covered_later (covered_later covered passed) kept
        exact behaves_bind (ih behind) fun _ _ _ _ => behaves_pure _

/-- The heart of nested groups lies on the lines of the element that holds it. -/
theorem covered_core (element : Element) (owner : Option Nat)
    (covered : Covered on bound (Row.ofList [element] owner)) :
    Covered on bound (element.core owner).row := by
  have below {element : Element} {owner : Option Nat} (covered : Covered on bound (Row.ofList [element] owner)) :
      Covered on bound (Row.ofChildren element) :=
    covered_heavier (covered_element covered rfl).2.2 (Nat.sub_le bound 1)
  fun_induction Element.core owner element with
  | case1 owner value line child ih => exact ih (below covered)
  | case2 owner value line children several => exact below covered
  | case3 owner value line child ih => exact ih (below covered)
  | case4 owner value line children several => exact below covered
  | case5 owner element => exact covered

private theorem behaves_listElement (steady : Steady bound item) (covered : Covered on bound row) :
    Behaves on 1 (listElement item) row := by
  cases shape : row.rest with
  | nil =>
    have failed : listElement item row = .error (.malformed .endOfGroup row.owner) row := by
      rw [listElement, shape]
    rw [Behaves, failed]
    exact ⟨passed_nothing _, nofun, covered.owner⟩
  | cons element rest =>
    have inside := covered_core element element.line (covered_element covered shape).2.1
    have read : Behaves on 0
        (if (element.core element.line).isFenced then fenced item else Rule.list item)
        (element.core element.line).row := by
      split
      · exact behaves_get (behaves_fencedItems steady inside _)
      · exact behaves_list steady inside
    have taken : listElement item row = (modify Row.advance >>= fun _ =>
        within (element.core element.line).row
          (if (element.core element.line).isFenced then fenced item else Rule.list item)) row := by
      rw [listElement, shape]
      rfl
    exact behaves_congr taken (behaves_advance shape (behaves_within read))

end Lists

/-! ## Formulas -/

section Formulas

variable {factor term : Rule Formula} {row : Row}

private theorem behaves_termTail (steady : Steady bound factor) (covered : Covered on bound row) (run : List Formula)
    (limit : Nat) : Behaves on 0 (Grammar.termTail factor run limit) row := by
  induction limit generalizing run row with
  | zero => exact behaves_pure _
  | succ limit ih =>
    have next {row : Row} (covered : Covered on bound row) (gather : Formula → List Formula) :
        Behaves on 1 (factor >>= fun operand => Grammar.termTail factor (gather operand) limit) row :=
      behaves_bind (steady covered) fun operand left _ passed => ih (covered_later covered passed) _
    have signed (gather : Formula → List Formula) :
        Behaves on 0 (take "mo" >>= fun _ => factor >>= fun operand =>
          Grammar.termTail factor (gather operand) limit) row :=
      behaves_any (behaves_bind (behaves_take covered) fun _ left _ passed =>
        behaves_any (next (covered_later covered passed) gather))
    rw [Grammar.termTail]
    refine behaves_get ?_
    split
    · exact behaves_pure _
    · split
      · exact signed _
      · exact signed _
      · split
        · exact behaves_pure _
        · exact behaves_any (next covered _)
      · exact behaves_any (next covered _)

theorem steady_termWith (steady : Steady bound factor) : Steady bound (Grammar.termWith factor) := by
  intro on row covered
  exact behaves_bind (steady covered) fun first left _ passed =>
    behaves_get (behaves_termTail steady (covered_later covered passed) [first] _)

private theorem behaves_sumTail (steady : Steady bound term) (covered : Covered on bound row) (sum : Formula)
    (limit : Nat) :
    Behaves on 0 (Grammar.sumTail term sum limit) row := by
  induction limit generalizing sum row with
  | zero => exact behaves_pure _
  | succ limit ih =>
    have next (gather : Formula → Formula) :
        Behaves on 0 (take "mo" >>= fun _ => term >>= fun operand =>
          Grammar.sumTail term (gather operand) limit) row := by
      refine behaves_any (behaves_bind (behaves_take covered) fun _ left _ passed => ?_)
      have behind := covered_later covered passed
      apply behaves_any
      exact behaves_bind (steady behind) fun operand _ _ passedTerm => ih (covered_later behind passedTerm) _
    rw [Grammar.sumTail]
    refine behaves_operator ?_
    split
    · exact next _
    · exact next _
    · exact behaves_pure _

theorem steady_expressionWith (steady : Steady bound factor) : Steady bound (Grammar.expressionWith factor) := by
  intro on row covered
  exact behaves_bind (steady_termWith steady covered) fun first left _ passed =>
    behaves_get (behaves_sumTail (steady_termWith steady) (covered_later covered passed) first _)

/-! ## Factors -/

theorem steady_number (bound : Nat) : Steady bound Grammar.number := by
  intro on row covered
  refine behaves_bind (behaves_take covered) fun element left taken _ => ?_
  obtain ⟨shape, -⟩ := take_ok taken
  have here := (covered_element covered shape).1
  split
  · exact behaves_complain here
  · split
    · exact behaves_pure _
    · exact behaves_complain here

theorem steady_identifier (bound : Nat) : Steady bound Grammar.identifier := by
  intro on row covered
  refine behaves_get ?_
  split
  · exact behaves_complain covered.owner
  · rename_i element rest shape
    have here := (covered_element covered shape).1
    split
    · have moved : Behaves on 1 (set row.advance : Rule Unit) row := passed_advance shape
      refine behaves_bind moved fun _ _ _ _ => ?_
      split
      · exact behaves_complain here
      · exact behaves_pure _
    · exact behaves_complain here

private theorem behaves_argumentsWith {expression : Rule Formula} (steady : Steady bound expression)
    (covered : Covered on bound row) : Behaves on 1 (Grammar.argumentsWith expression) row := by
  refine behaves_operator ?_
  split
  · exact behaves_bracketed steady covered
  · exact behaves_listElement steady covered

theorem behaves_operandWith {expression : Rule Formula} (steady : Steady bound expression)
    (covered : Covered on bound row) (construct : String) :
    Behaves on 1 (Grammar.operandWith expression construct) row := by
  refine behaves_get (behaves_bind (behaves_takeWindow covered) fun window left taken _ => ?_)
  obtain ⟨element, shape, rfl⟩ := takeWindow_ok taken
  have inside := (covered_element covered shape).2.1
  refine behaves_bind (behaves_within (behaves_whole inside (steady inside))) fun value _ _ _ => ?_
  split
  · exact behaves_complain (covered_line covered)
  · exact behaves_pure _

private theorem behaves_pairWith {expression : Rule Formula} (steady : Steady bound expression)
    (shape : row.rest = element :: rest) (here : on (some element.line))
    (inside : Covered on bound (Row.ofChildren element)) :
    Behaves on 1 (Grammar.pairWith expression element) row := by
  refine behaves_advance shape ?_
  split
  · refine behaves_within (behaves_bind (behaves_operandWith steady inside _) fun first left _ passed => ?_)
    have second := behaves_operandWith steady (covered_later inside passed)
    exact behaves_any (behaves_bind (second _) fun _ _ _ _ => behaves_pure _)
  · exact behaves_throw ⟨nofun, here⟩

private theorem behaves_groupWith (steady : Steady bound factor) (shape : row.rest = element :: rest)
    (inside : Covered on bound (Row.ofChildren element)) : Behaves on 1 (Grammar.groupWith factor element) row := by
  refine behaves_advance shape ?_
  split
  · exact behaves_pure _
  · exact behaves_within (behaves_whole inside (steady_expressionWith steady inside))

private theorem behaves_squareRootWith (steady : Steady bound factor) (shape : row.rest = element :: rest)
    (here : on (some element.line)) (inside : Covered on bound (Row.ofChildren element)) :
    Behaves on 1 (Grammar.squareRootWith factor element) row := by
  refine behaves_advance shape ?_
  split
  · exact behaves_throw ⟨nofun, here⟩
  · have radicand := behaves_whole inside (steady_expressionWith steady inside)
    exact behaves_bind (behaves_within radicand) fun _ _ _ _ => behaves_pure _

private theorem invocation_blames (here : on (some line))
    (failed : Grammar.invocation name arguments line = .error fault) :
    Blames on fault := by
  unfold Grammar.invocation at failed
  split at failed
  · split at failed
    · cases failed
    · cases failed
      exact ⟨nofun, here⟩
  · cases failed

private theorem behaves_namedWith (steady : Steady bound factor) (covered : Covered on (bound + 1) row)
    (here : on (some element.line)) : Behaves on 1 (Grammar.namedWith factor element) row := by
  refine behaves_bind (steady_identifier _ covered) fun name middle _ passed => behaves_operator ?_
  have behind := covered_behind covered passed
  split
  · refine behaves_any (behaves_bind (behaves_take behind) fun _ left _ passedSign => ?_)
    have arguments := behaves_argumentsWith (steady_expressionWith steady) (covered_later behind passedSign)
    refine behaves_any (behaves_bind arguments fun values _ _ _ => ?_)
    split
    · exact behaves_pure _
    · rename_i failed
      exact behaves_throw (invocation_blames here failed)
  · exact behaves_pure _

private theorem behaves_signedWith (steady : Steady bound factor) (covered : Covered on (bound + 1) row)
    (here : on (some element.line)) : Behaves on 1 (Grammar.signedWith factor element) row := by
  have signed (op : UnaryOp) :
      Behaves on 1 (take "mo" >>= fun _ => factor >>= fun operand => pure (Formula.unary op operand)) row :=
    behaves_bind (behaves_take covered) fun _ left _ passed =>
      behaves_any (behaves_bind (steady (covered_behind covered passed)) fun _ _ _ _ => behaves_pure _)
  unfold Grammar.signedWith
  split
  · exact signed .plus
  · exact signed .minus
  · refine behaves_bind (behaves_take covered) fun _ left _ passed => ?_
    have behind := covered_behind covered passed
    refine behaves_any (behaves_bind (steady_expressionWith steady behind) fun value _ _ passedValue => ?_)
    exact behaves_any (behaves_bind (behaves_close (covered_later behind passedValue)) fun _ _ _ _ => behaves_pure _)
  · exact behaves_complain here
  · exact behaves_complain here
  · exact behaves_complain here

/-- Inside a factor there are fewer elements than in and below its row. -/
theorem steady_factorWith (steady : Steady bound factor) : Steady (bound + 1) (Grammar.factorWith factor) := by
  intro on row covered
  refine behaves_get ?_
  split
  · exact behaves_complain covered.owner
  · rename_i element rest shape
    obtain ⟨here, -, inside⟩ := covered_element covered shape
    have expressions := steady_expressionWith steady
    have pairs {β : Type} (form : Formula × Formula → Rule β)
        (gives : ∀ pair row, Behaves on 0 (form pair) row) :
        Behaves on 1 (Grammar.pairWith (Grammar.expressionWith factor) element >>= form) row :=
      behaves_bind (behaves_pairWith expressions shape here inside) fun pair left _ _ => gives pair left
    split
    · exact steady_number _ covered
    · exact behaves_namedWith steady covered here
    · exact behaves_namedWith steady covered here
    · exact behaves_groupWith steady shape inside
    · exact behaves_groupWith steady shape inside
    · exact behaves_signedWith steady covered here
    · exact pairs _ fun _ _ => behaves_pure _
    · exact pairs _ fun _ _ => behaves_pure _
    · exact pairs _ fun _ _ => behaves_pure _
    · exact behaves_squareRootWith steady shape here inside
    · split
      · exact behaves_throw ⟨nofun, here⟩
      · exact behaves_complain here

theorem steady_factorAt (depth : Nat) : Steady depth (Grammar.factorAt depth) := by
  induction depth with
  | zero =>
    intro on row covered
    exact absurd covered.light (Nat.not_lt_zero _)
  | succ depth ih => exact steady_factorWith ih

theorem steady_expression (bound : Nat) : Steady bound Grammar.expression := by
  intro on row covered
  have fits : Covered on (row.weight + 1) row := ⟨covered.owner, covered.elements, Nat.lt_succ_self _⟩
  have same : Grammar.expression row = Grammar.expressionWith (Grammar.factorAt (row.weight + 1)) row := by
    rw [Grammar.expression]
  exact behaves_congr same (steady_expressionWith (steady_factorAt _) fits)

end Formulas

/-! ## Statements -/

section Statements

variable {row : Row} {element : Element}

private theorem checkParameters_blames (here : on line)
    (failed : Grammar.checkParameters name line seen parameters = .error fault) : Blames on fault := by
  induction parameters generalizing seen with
  | nil => cases failed
  | cons parameter rest ih =>
    rw [Grammar.checkParameters] at failed
    split at failed
    · cases failed
      exact ⟨nofun, here⟩
    · split at failed
      · cases failed
        exact ⟨nofun, here⟩
      · exact ih failed

private theorem behaves_checked (here : on line) (name : String) (parameters : List String) :
    Behaves on 0 (match Grammar.checkParameters name line [] parameters with
      | .ok _ => pure (name, parameters)
      | .error fault => throw fault : Rule (String × List String)) row := by
  split
  · exact behaves_pure _
  · rename_i failed
    exact behaves_throw (checkParameters_blames here failed)

private theorem behaves_head (covered : Covered on bound row) (here : on line) : Behaves on 1
    (Grammar.head line) row := by
  refine behaves_bind (steady_identifier _ covered) fun name middle _ passed => ?_
  have behind := covered_later covered passed
  split
  · exact behaves_complain here
  refine behaves_operator ?_
  split
  · refine behaves_any (behaves_bind (behaves_take behind) fun _ left _ passedSign => behaves_get ?_)
    have inside := covered_later behind passedSign
    split
    · apply behaves_any
      exact behaves_bind (behaves_listElement (steady_identifier _) inside) fun _ _ _ _ => behaves_checked here name _
    · exact behaves_bind (behaves_list (steady_identifier _) inside) fun _ _ _ _ => behaves_checked here name _
  · exact behaves_get (behaves_complain (covered_line behind))

private theorem behaves_definition (covered : Covered on bound row) (shape : row.rest = element :: rest) :
    Behaves on 1 (Grammar.definition element) row := by
  obtain ⟨here, -, inside⟩ := covered_element covered shape
  refine behaves_advance shape ?_
  have behind := covered_later covered (passed_advance shape)
  refine behaves_bind (behaves_within (behaves_head inside here)) fun head left _ kept => ?_
  have outside := covered_later behind kept
  refine behaves_any (behaves_bind (behaves_take outside) fun _ _ _ passed => ?_)
  have body := steady_expression _ (covered_later outside passed)
  exact behaves_any (behaves_bind body fun _ _ _ _ => behaves_pure _)

private theorem behaves_assignment (covered : Covered on bound row) (here : on (some element.line)) :
    Behaves on 1 (Grammar.assignment element) row := by
  refine behaves_bind (steady_identifier _ covered) fun name middle _ passed => ?_
  have behind := covered_later covered passed
  split
  · exact behaves_complain here
  · refine behaves_any (behaves_bind (behaves_take behind) fun _ _ _ passedSign => ?_)
    have value := steady_expression _ (covered_later behind passedSign)
    exact behaves_any (behaves_bind value fun _ _ _ _ => behaves_pure _)

/-- A declaration is looked for only where a sign of equality follows an element. -/
theorem behaves_body (covered : Covered on bound row) : Behaves on 1 Grammar.body row := by
  refine behaves_get ?_
  split
  · rename_i found
    refine behaves_get ?_
    split
    · rename_i ended
      simp [Row.following?, ended] at found
    · rename_i element rest shape
      have here := (covered_element covered shape).1
      split
      · exact behaves_assignment covered here
      · exact behaves_assignment covered here
      · exact behaves_definition covered shape
      · exact behaves_complain here
  · exact steady_expression _ covered

private theorem covered_statementRow (element : Element) (covered : Covered on bound (Row.ofChildren element)) :
    Covered on bound element.statementRow := by
  fun_induction Element.statementRow element with
  | case1 name text outer value line children ih =>
    exact ih (covered_heavier (covered_element covered rfl).2.2 (Nat.sub_le bound 1))
  | case2 name value line children several => exact covered

/-- A statement is refused with a fault on a line of the element that should hold it. -/
theorem statement_fault_line (refused : Statement.ofElement element = .error fault) :
    (∀ misuse, fault ≠ .internal misuse) ∧ ∃ line ∈ lines element, fault.line = some line := by
  let on : Option Nat → Prop := fun line => ∃ own ∈ lines element, line = some own
  have own : on (some element.line) := ⟨element.line, by simp [lines_eq], rfl⟩
  have inside : Covered on (Element.listWeight element.children + 1) (Row.ofChildren element) :=
    ⟨own, fun line member => ⟨line, by rw [lines_eq]; exact List.mem_cons_of_mem _ member, rfl⟩, Nat.lt_succ_self _⟩
  have row := covered_statementRow element inside
  have behaves := behaves_whole row (behaves_body row)
  unfold Statement.ofElement at refused
  split at refused
  · split at refused
    · cases refused
    · rename_i failed
      cases refused
      rw [Behaves, failed] at behaves
      exact behaves.2
  · cases refused
    exact ⟨nofun, own⟩

end Statements

end FormulaSheet.FaultLines
