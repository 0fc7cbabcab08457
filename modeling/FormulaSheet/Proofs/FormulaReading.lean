import FormulaSheet.Formula.Sheet
import FormulaSheet.Proofs.Sequencing

/-! What the grammar reads, as relations between the elements in front of a rule, the value that it gives
and the elements that it leaves. There is one rule of a relation for each way in which a rule of the grammar
can succeed. The relations are parametrised as the grammar is, by what is read for an item or for a factor,
so that a property of all formulas needs one step for factors and one induction on their nesting. -/
namespace FormulaSheet.FormulaReading
open Markup (Element)
open Rule Sequencing

/-- Elements, the value that is read from their front, and the elements behind it. -/
abbrev Reading (α : Type) := List Element → α → List Element → Prop

/-- What a rule reads. -/
def Gives {α : Type} (rule : Rule α) : Reading α :=
  fun before value after => ∃ row left, row.rest = before ∧ left.rest = after ∧ rule row = .ok value left

theorem gives_of_ok {α : Type} {rule : Rule α} {value : α} (ran : rule row = .ok value left) :
    Gives rule row.rest value left.rest :=
  ⟨row, left, rfl, rfl, ran⟩

/-- One reading is a case of another. -/
def Entails {α : Type} (reading holds : Reading α) : Prop :=
  ∀ ⦃before value after⦄, reading before value after → holds before value after

theorem entails_trans {α : Type} {reading middle holds : Reading α} (first : Entails reading middle)
    (second : Entails middle holds) : Entails reading holds :=
  fun _ _ _ read => second (first read)

/-! ## Success of single steps -/

section Steps

variable {α β : Type} {rule : Rule α} {row left : Row}

theorem isExhausted_iff : row.isExhausted = true ↔ row.rest = [] := List.isEmpty_iff

theorem get_bind (next : Row → Rule β) (row : Row) : (get >>= next) row = next row row := rfl

theorem operator?_bind (next : Option Operator → Rule β) (row : Row) :
    (Rule.operator? >>= next) row = next row.operator? row :=
  rfl

theorem operator?_some (found : row.operator? = some operator) :
    ∃ element rest, row.rest = element :: rest ∧ element.operator? = some operator := by
  obtain ⟨taken, rest, owner⟩ := row
  cases rest with
  | nil => cases found
  | cons element rest => exact ⟨element, rest, rfl, found⟩

/-- Only an `mo` element spells an operator. -/
theorem name_of_operator? {element : Element} (found : element.operator? = some operator) :
    element.name = "mo" := by
  unfold Element.operator? at found
  split at found
  · assumption
  · cases found

theorem take_ok (ran : take tag row = .ok element left) :
    row.rest = element :: left.rest ∧ element.name = tag := by
  unfold take at ran
  split at ran
  · cases ran
  · rename_i element rest shape
    split at ran
    · rename_i named
      cases ran
      exact ⟨by simp [Row.advance, shape], named⟩
    · cases ran

theorem takeWindow_ok (ran : takeWindow row = .ok window left) :
    ∃ element, row.rest = element :: left.rest ∧ window = Row.ofElement element := by
  unfold takeWindow at ran
  split at ran
  · cases ran
  · rename_i element rest shape
    cases ran
    exact ⟨element, by simp [Row.advance, shape], rfl⟩

theorem finish_ok (ran : finish row = .ok value left) : row.rest = [] ∧ left = row := by
  unfold finish at ran
  split at ran
  · rename_i shape
    cases ran
    exact ⟨shape, rfl⟩
  · cases ran

private theorem whole_ok (ran : whole rule row = .ok value left) :
    rule row = .ok value left ∧ left.rest = [] := by
  obtain ⟨first, middle, read, rest⟩ := bind_ok ran
  obtain ⟨done, last, finished, rest⟩ := bind_ok rest
  cases rest
  obtain ⟨ended, rfl⟩ := finish_ok finished
  exact ⟨read, ended⟩

theorem within_ok (ran : within inside rule row = .ok value left) :
    (∃ rest, rule inside = .ok value rest) ∧ left = row := by
  unfold within at ran
  split at ran
  · rename_i found rest read
    cases ran
    exact ⟨⟨rest, read⟩, rfl⟩
  · cases ran

private theorem within_whole_ok {inside : Row} (ran : within inside (whole rule) row = .ok value left) :
    Gives rule inside.rest value [] ∧ left = row := by
  obtain ⟨⟨rest, read⟩, same⟩ := within_ok ran
  obtain ⟨read, ended⟩ := whole_ok read
  exact ⟨ended ▸ gives_of_ok read, same⟩

theorem close_ok (ran : close bracket row = .ok value left) :
    ∃ element, row.rest = element :: left.rest ∧ element.operator? = some (.closing bracket) := by
  unfold close at ran
  rw [operator?_bind] at ran
  split at ran
  · rename_i found
    obtain ⟨element, middle, taken, rest⟩ := bind_ok ran
    cases rest
    obtain ⟨shape, -⟩ := take_ok taken
    obtain ⟨other, tail, shape', closes⟩ := operator?_some found
    rw [shape] at shape'
    cases shape'
    exact ⟨element, shape, closes⟩
  · cases ran

/-- A rule reads the sign that it has seen. -/
theorem take_sign (found : row.operator? = some operator) (taken : take "mo" row = .ok sign middle) :
    row.rest = sign :: middle.rest ∧ sign.operator? = some operator := by
  obtain ⟨shape, -⟩ := take_ok taken
  obtain ⟨other, tail, shape', spells⟩ := operator?_some found
  rw [shape] at shape'
  cases shape'
  exact ⟨shape, spells⟩

end Steps

/-! ## Lists -/

section Lists

variable {α : Type}

/-- Items and commas up to the closing bracket. -/
inductive BracketedItems (item : Reading α) (bracket : Bracket) : Reading (List α) where
  | last (read : item before value (closing :: after))
      (closes : closing.operator? = some (.closing bracket)) :
      BracketedItems item bracket before [value] after
  | next (read : item before value (comma :: middle)) (separates : comma.operator? = some .comma)
      (rest : BracketedItems item bracket middle values after) :
      BracketedItems item bracket before (value :: values) after

/-- A list in brackets. -/
inductive Bracketed (item : Reading α) (bracket : Bracket) : Reading (List α) where
  | none (opens : opening.operator? = some (.opening bracket))
      (closes : closing.operator? = some (.closing bracket)) :
      Bracketed item bracket (opening :: closing :: after) [] after
  | items (opens : opening.operator? = some (.opening bracket))
      (read : BracketedItems item bracket before values after) :
      Bracketed item bracket (opening :: before) values after

/-- Items separated by commas that fill a row. The last may have a comma behind it. -/
inductive BareItems (item : Reading α) : List Element → List α → Prop where
  | none : BareItems item [] []
  | last (read : item before value []) : BareItems item before [value]
  | next (read : item before value (comma :: middle)) (separates : comma.operator? = some .comma)
      (rest : BareItems item middle values) : BareItems item before (value :: values)

/-- A list that fills a row, in brackets or bare. -/
inductive Listing (item : Reading α) (before : List Element) (values : List α) : Prop where
  | bracketed (read : Bracketed item bracket before values [])
  | bare (read : BareItems item before values)

/-- Elements that are items of their own, with commas between them or not. -/
inductive FencedItems (item : Reading α) : List Element → List α → Prop where
  | none : FencedItems item [] []
  | comma (separates : comma.operator? = some .comma) (rest : FencedItems item before values) :
      FencedItems item (comma :: before) values
  | next (read : item [element] value []) (rest : FencedItems item before values) :
      FencedItems item (element :: before) (value :: values)

/-- The list that an element holds at the heart of its groups. -/
inductive HeldList (item : Reading α) (element : Element) (values : List α) : Prop where
  | fenced (read : FencedItems item (element.core element.line).row.rest values)
  | listing (read : Listing item (element.core element.line).row.rest values)

/-- Whatever is read takes at least one element. -/
def Advances (item : Reading α) : Prop :=
  ∀ ⦃before value after⦄, item before value after → after.length < before.length

variable {item : Rule α} {row left : Row} {values : List α}

private theorem bracketedItems_ok (ran : bracketedItems bracket item limit row = .ok values left) :
    BracketedItems (Gives item) bracket row.rest values left.rest := by
  induction limit generalizing row values with
  | zero => cases ran
  | succ limit ih =>
    obtain ⟨first, middle, read, rest⟩ := bind_ok ran
    rw [operator?_bind] at rest
    split at rest
    · rename_i separates
      obtain ⟨comma, behind, taken, rest⟩ := bind_ok rest
      obtain ⟨shape, spells⟩ := take_sign separates taken
      obtain ⟨others, last, readOthers, rest⟩ := bind_ok rest
      cases rest
      exact .next (shape ▸ gives_of_ok read) spells (ih readOthers)
    · obtain ⟨done, last, closed, rest⟩ := bind_ok rest
      cases rest
      obtain ⟨closing, shape, closes⟩ := close_ok closed
      exact .last (shape ▸ gives_of_ok read) closes

private theorem bracketed_ok (opens : row.operator? = some (.opening bracket))
    (ran : bracketed bracket item row = .ok values left) :
    Bracketed (Gives item) bracket row.rest values left.rest := by
  obtain ⟨opening, middle, taken, rest⟩ := bind_ok ran
  obtain ⟨shape, spells⟩ := take_sign opens taken
  rw [operator?_bind] at rest
  rw [shape]
  split at rest
  · rename_i closes
    obtain ⟨closing, last, takenClose, rest⟩ := bind_ok rest
    cases rest
    obtain ⟨shapeClose, spellsClose⟩ := take_sign closes takenClose
    rw [shapeClose]
    exact .none spells spellsClose
  · exact .items spells (bracketedItems_ok rest)

theorem bareItems_exhausted (ended : row.rest = []) : bareItems item limit row = .ok [] row := by
  cases limit with
  | zero => rfl
  | succ limit =>
    change (if row.isExhausted then pure [] else _ : Rule (List α)) row = .ok [] row
    rw [if_pos (isExhausted_iff.mpr ended)]
    rfl

/-- With a limit that the items cannot reach, a bare list is read to the end of the row. -/
theorem bareItems_ok (advances : Advances (Gives item)) (enough : row.rest.length ≤ limit)
    (ran : bareItems item limit row = .ok values left) :
    BareItems (Gives item) row.rest values ∧ left.rest = [] := by
  induction limit generalizing row values with
  | zero =>
    cases ran
    have ended : left.rest = [] := List.length_eq_zero_iff.mp (by omega)
    exact ⟨ended ▸ .none, ended⟩
  | succ limit ih =>
    change (if row.isExhausted then pure [] else _ : Rule (List α)) row = .ok values left at ran
    split at ran
    · rename_i exhausted
      cases ran
      have ended : left.rest = [] := isExhausted_iff.mp exhausted
      exact ⟨ended ▸ .none, ended⟩
    · obtain ⟨first, middle, read, rest⟩ := bind_ok ran
      have shorter := advances (gives_of_ok read)
      rw [operator?_bind] at rest
      split at rest
      · rename_i separates
        obtain ⟨comma, behind, taken, rest⟩ := bind_ok rest
        obtain ⟨shape, spells⟩ := take_sign separates taken
        obtain ⟨others, last, readOthers, rest⟩ := bind_ok rest
        cases rest
        have less : behind.rest.length ≤ limit := by
          rw [shape, List.length_cons] at shorter
          omega
        obtain ⟨tail, ended⟩ := ih less readOthers
        exact ⟨.next (shape ▸ gives_of_ok read) spells tail, ended⟩
      · obtain ⟨done, behind, finished, rest⟩ := bind_ok rest
        obtain ⟨others, last, readOthers, rest⟩ := bind_ok rest
        cases rest
        obtain ⟨ended, rfl⟩ := finish_ok finished
        rw [bareItems_exhausted ended] at readOthers
        cases readOthers
        exact ⟨.last (ended ▸ gives_of_ok read), ended⟩

private theorem list_ok (advances : Advances (Gives item)) (ran : Rule.list item row = .ok values left) :
    Listing (Gives item) row.rest values ∧ left.rest = [] := by
  have asBare (ranBare : bare item row = .ok values left) :
      Listing (Gives item) row.rest values ∧ left.rest = [] := by
    obtain ⟨read, ended⟩ := bareItems_ok advances (Nat.le_refl _) ranBare
    exact ⟨.bare read, ended⟩
  unfold Rule.list at ran
  -- An attempt in brackets that fails or stops early is forgotten: the bare list begins anew.
  split at ran
  · rename_i bracket opens
    split at ran
    · rename_i found last read
      split at ran
      · rename_i exhausted
        cases ran
        have ended : left.rest = [] := isExhausted_iff.mp exhausted
        exact ⟨.bracketed (ended ▸ bracketed_ok opens read), ended⟩
      · exact asBare ran
    · exact asBare ran
  · exact asBare ran

theorem fencedItems_exhausted (ended : row.rest = []) : fencedItems item limit row = .ok [] row := by
  cases limit with
  | zero => rfl
  | succ limit =>
    rw [fencedItems, get_bind, if_pos (isExhausted_iff.mpr ended)]
    rfl

private theorem fencedItems_ok (enough : row.rest.length ≤ limit)
    (ran : fencedItems item limit row = .ok values left) :
    FencedItems (Gives item) row.rest values := by
  induction limit generalizing row values with
  | zero =>
    cases ran
    have ended : left.rest = [] := List.length_eq_zero_iff.mp (by omega)
    exact ended ▸ .none
  | succ limit ih =>
    change (if row.isExhausted then pure [] else _ : Rule (List α)) row = .ok values left at ran
    split at ran
    · rename_i exhausted
      cases ran
      have ended : left.rest = [] := isExhausted_iff.mp exhausted
      exact ended ▸ .none
    · rw [operator?_bind] at ran
      split at ran
      · rename_i separates
        obtain ⟨comma, behind, taken, rest⟩ := bind_ok ran
        obtain ⟨shape, spells⟩ := take_sign separates taken
        rw [shape, List.length_cons] at enough
        rw [shape]
        exact .comma spells (ih (by omega) rest)
      · obtain ⟨window, behind, taken, rest⟩ := bind_ok ran
        obtain ⟨first, same, read, rest⟩ := bind_ok rest
        obtain ⟨others, last, readOthers, rest⟩ := bind_ok rest
        cases rest
        obtain ⟨element, shape, rfl⟩ := takeWindow_ok taken
        obtain ⟨readFirst, rfl⟩ := within_whole_ok read
        rw [shape, List.length_cons] at enough
        rw [shape]
        exact .next readFirst (ih (by omega) readOthers)

/-- An element that is read as a list holds one, and nothing behind it is read. -/
theorem listElement_ok (advances : Advances (Gives item)) (ran : listElement item row = .ok values left) :
    ∃ element, row.rest = element :: left.rest ∧ HeldList (Gives item) element values := by
  unfold listElement at ran
  split at ran
  · cases ran
  · rename_i element rest shape
    obtain ⟨⟨last, read⟩, rfl⟩ := within_ok ran
    refine ⟨element, by simp [Row.advance, shape], ?_⟩
    split at read
    · exact .fenced (fencedItems_ok (Nat.le_refl _) read)
    · exact .listing (list_ok advances read).1

end Lists

/-! ## Terms and sums -/

/-- The operator that spells an operation. -/
def binarySign : BinaryOp → Operator
  | .add => .plus
  | .sub => .minus
  | .mul => .times
  | .div => .divide

/-- The operator that spells a sign. -/
def unarySign : UnaryOp → Operator
  | .plus => .plus
  | .minus => .minus

/-- The rest of a term behind the factors in `run`. -/
inductive TermRest (factor : Reading Formula) : List Formula → Reading Formula where
  | done : TermRest factor run before (Formula.product run) before
  | signed (op : BinaryOp) (multiplies : op = .mul ∨ op = .div)
      (spells : element.operator? = some (binarySign op)) (read : factor before operand middle)
      (rest : TermRest factor [.binary op (Formula.product run) operand] middle value after) :
      TermRest factor run (element :: before) value after
  | beside (read : factor before operand middle)
      (rest : TermRest factor (run ++ [operand]) middle value after) :
      TermRest factor run before value after

def Term (factor : Reading Formula) : Reading Formula :=
  fun before value after => ∃ first middle, factor before first middle ∧
    TermRest factor [first] middle value after

/-- The rest of a sum behind the terms in `sum`. -/
inductive SumRest (term : Reading Formula) : Formula → Reading Formula where
  | done : SumRest term sum before sum before
  | next (op : BinaryOp) (adds : op = .add ∨ op = .sub)
      (spells : element.operator? = some (binarySign op)) (read : term before operand middle)
      (rest : SumRest term (.binary op sum operand) middle value after) :
      SumRest term sum (element :: before) value after

def Sum (term : Reading Formula) : Reading Formula :=
  fun before value after => ∃ first middle, term before first middle ∧ SumRest term first middle value after

section Formulas

variable {factor expression : Rule Formula} {row left : Row} {value : Formula}

theorem operator?_cons (shape : row.rest = element :: rest) : row.operator? = element.operator? := by
  simp [Row.operator?, Row.current?, shape]

theorem termTail_exhausted (ended : row.rest = []) :
    Grammar.termTail factor run limit row = .ok (Formula.product run) row := by
  cases limit with
  | zero => rfl
  | succ limit =>
    rw [Grammar.termTail, get_bind, ended]
    rfl

/-- A term ends in front of some operators. -/
theorem termTail_ends (found : row.operator? = some operator) (ends : operator.endsTerm = true) :
    Grammar.termTail factor run limit row = .ok (Formula.product run) row := by
  obtain ⟨element, rest, shape, spells⟩ := operator?_some found
  cases limit with
  | zero => rfl
  | succ limit =>
    rw [Grammar.termTail, get_bind, shape]
    dsimp only
    rw [spells]
    cases operator with
    | plus | minus | equals | comma | closing bracket => rfl
    | times | divide | opening bracket | application => cases ends

theorem termTail_signed (op : BinaryOp) (multiplies : op = .mul ∨ op = .div)
    (found : row.operator? = some (binarySign op)) :
    Grammar.termTail factor run (limit + 1) row =
      (take "mo" >>= fun _ => factor >>= fun operand =>
        Grammar.termTail factor [.binary op (Formula.product run) operand] limit) row := by
  obtain ⟨element, rest, shape, spells⟩ := operator?_some found
  rw [Grammar.termTail, get_bind, shape]
  dsimp only
  rw [spells]
  rcases multiplies with rfl | rfl <;> rfl

/-- Anything else begins another factor. -/
theorem termTail_beside (shape : row.rest = element :: rest)
    (unsigned : ∀ operator, row.operator? = some operator →
      operator ≠ .times ∧ operator ≠ .divide ∧ operator.endsTerm = false) :
    Grammar.termTail factor run (limit + 1) row =
      (factor >>= fun operand => Grammar.termTail factor (run ++ [operand]) limit) row := by
  rw [operator?_cons shape] at unsigned
  rw [Grammar.termTail, get_bind, shape]
  dsimp only
  cases found : element.operator? with
  | none => rfl
  | some operator =>
    obtain ⟨noTimes, noDivide, more⟩ := unsigned operator found
    cases operator with
    | opening bracket | application => rfl
    | times => exact absurd rfl noTimes
    | divide => exact absurd rfl noDivide
    | plus | minus | equals | comma | closing bracket => cases more

/-- One round of the loop: it is over, or it reads a factor behind a sign or beside the others. -/
theorem termTail_cases (ran : Grammar.termTail factor run (limit + 1) row = .ok value left) :
    (value = Formula.product run ∧ left = row) ∨
    (∃ op sign behind operand middle, (op = .mul ∨ op = .div) ∧ row.rest = sign :: behind.rest ∧
      sign.operator? = some (binarySign op) ∧ factor behind = .ok operand middle ∧
      Grammar.termTail factor [.binary op (Formula.product run) operand] limit middle = .ok value left) ∨
    ∃ operand middle, (∀ operator, row.operator? = some operator →
        operator ≠ .times ∧ operator ≠ .divide ∧ operator.endsTerm = false) ∧
      factor row = .ok operand middle ∧
      Grammar.termTail factor (run ++ [operand]) limit middle = .ok value left := by
  cases shape : row.rest with
  | nil =>
    rw [termTail_exhausted shape] at ran
    cases ran
    exact .inl ⟨rfl, rfl⟩
  | cons element rest =>
    rw [← shape]
    by_cases signed : ∃ op, (op = .mul ∨ op = .div) ∧ row.operator? = some (binarySign op)
    · obtain ⟨op, multiplies, found⟩ := signed
      rw [termTail_signed op multiplies found] at ran
      obtain ⟨sign, behind, taken, more⟩ := bind_ok ran
      obtain ⟨operand, middle, read, more⟩ := bind_ok more
      obtain ⟨shape, spells⟩ := take_sign found taken
      exact .inr (.inl ⟨op, sign, behind, operand, middle, multiplies, shape, spells, read, more⟩)
    by_cases ends : ∃ operator, row.operator? = some operator ∧ operator.endsTerm = true
    · obtain ⟨operator, found, ends⟩ := ends
      rw [termTail_ends found ends] at ran
      cases ran
      exact .inl ⟨rfl, rfl⟩
    · have unsigned (operator : Operator) (found : row.operator? = some operator) :
          operator ≠ .times ∧ operator ≠ .divide ∧ operator.endsTerm = false := by
        refine ⟨?_, ?_, ?_⟩
        · rintro rfl
          exact signed ⟨.mul, .inl rfl, found⟩
        · rintro rfl
          exact signed ⟨.div, .inr rfl, found⟩
        · exact Bool.eq_false_iff.mpr fun stops => ends ⟨operator, found, stops⟩
      rw [termTail_beside shape unsigned] at ran
      obtain ⟨operand, middle, read, more⟩ := bind_ok ran
      exact .inr (.inr ⟨operand, middle, unsigned, read, more⟩)

private theorem termTail_ok (ran : Grammar.termTail factor run limit row = .ok value left) :
    TermRest (Gives factor) run row.rest value left.rest := by
  induction limit generalizing run row with
  | zero => cases ran; exact .done
  | succ limit ih =>
    rcases termTail_cases ran with ⟨rfl, rfl⟩ |
      ⟨op, sign, behind, operand, middle, multiplies, shape, spells, read, more⟩ |
      ⟨operand, middle, unsigned, read, more⟩
    · exact .done
    · exact shape ▸ .signed op multiplies spells (gives_of_ok read) (ih more)
    · exact .beside (gives_of_ok read) (ih more)

private theorem gives_termWith : Entails (Gives (Grammar.termWith factor)) (Term (Gives factor)) := by
  rintro before value after ⟨row, left, rfl, rfl, ran⟩
  obtain ⟨first, middle, read, rest⟩ := bind_ok ran
  exact ⟨first, middle.rest, gives_of_ok read, termTail_ok rest⟩

theorem sumTail_next (op : BinaryOp) (adds : op = .add ∨ op = .sub)
    (found : row.operator? = some (binarySign op)) :
    Grammar.sumTail factor sum (limit + 1) row =
      (take "mo" >>= fun _ => factor >>= fun operand =>
        Grammar.sumTail factor (.binary op sum operand) limit) row := by
  rw [Grammar.sumTail, operator?_bind, found]
  rcases adds with rfl | rfl <;> rfl

/-- A sum ends where no term is added or subtracted. -/
theorem sumTail_ends (noPlus : row.operator? ≠ some .plus) (noMinus : row.operator? ≠ some .minus) :
    Grammar.sumTail factor sum limit row = .ok sum row := by
  cases limit with
  | zero => rfl
  | succ limit =>
    rw [Grammar.sumTail, operator?_bind]
    cases found : row.operator? with
    | none => rfl
    | some operator =>
      cases operator with
      | plus => exact absurd found noPlus
      | minus => exact absurd found noMinus
      | times | divide | equals | comma | application | opening bracket | closing bracket => rfl

/-- One round of the loop: it is over, or it reads a term behind a sign. -/
theorem sumTail_cases (ran : Grammar.sumTail factor sum (limit + 1) row = .ok value left) :
    (value = sum ∧ left = row) ∨
    ∃ op sign behind operand middle, (op = .add ∨ op = .sub) ∧ row.rest = sign :: behind.rest ∧
      sign.operator? = some (binarySign op) ∧ factor behind = .ok operand middle ∧
      Grammar.sumTail factor (.binary op sum operand) limit middle = .ok value left := by
  by_cases signed : ∃ op, (op = .add ∨ op = .sub) ∧ row.operator? = some (binarySign op)
  · obtain ⟨op, adds, found⟩ := signed
    rw [sumTail_next op adds found] at ran
    obtain ⟨sign, behind, taken, more⟩ := bind_ok ran
    obtain ⟨operand, middle, read, more⟩ := bind_ok more
    obtain ⟨shape, spells⟩ := take_sign found taken
    exact .inr ⟨op, sign, behind, operand, middle, adds, shape, spells, read, more⟩
  · rw [sumTail_ends] at ran
    · cases ran
      exact .inl ⟨rfl, rfl⟩
    · exact fun found => signed ⟨.add, .inl rfl, found⟩
    · exact fun found => signed ⟨.sub, .inr rfl, found⟩

private theorem sumTail_ok (ran : Grammar.sumTail factor sum limit row = .ok value left) :
    SumRest (Gives factor) sum row.rest value left.rest := by
  induction limit generalizing sum row with
  | zero => cases ran; exact .done
  | succ limit ih =>
    rcases sumTail_cases ran with ⟨rfl, rfl⟩ |
      ⟨op, sign, behind, operand, middle, adds, shape, spells, read, more⟩
    · exact .done
    · exact shape ▸ .next op adds spells (gives_of_ok read) (ih more)

private theorem gives_expressionWith :
    Entails (Gives (Grammar.expressionWith factor)) (Sum (Gives (Grammar.termWith factor))) := by
  rintro before value after ⟨row, left, rfl, rfl, ran⟩
  obtain ⟨first, middle, read, rest⟩ := bind_ok ran
  exact ⟨first, middle.rest, gives_of_ok read, sumTail_ok rest⟩

end Formulas

/-! ## Factors -/

/-- The arguments of a call: in brackets in the same row, or in one element. -/
inductive Arguments (expression : Reading Formula) : Reading (List Formula) where
  | bracketed (read : Bracketed expression bracket before values after) :
      Arguments expression before values after
  | element (read : HeldList expression element values) : Arguments expression (element :: after) values after

/-- The two operands of a two-dimensional form. -/
structure Pair (expression : Reading Formula) (children : List Element) (first second : Formula) : Prop where
  shape : ∃ left right, children = [left, right] ∧ expression [left] first [] ∧ expression [right] second []
  filled : first.isEmpty = false ∧ second.isEmpty = false

/-- The ways to read a factor, given what is read for the factors and the expressions inside it. -/
inductive FactorForm (factor expression : Reading Formula) : Reading Formula where
  | number (tag : element.name = "mn") (spells : Number.ofText? element.value = some value) :
      FactorForm factor expression (element :: after) (.number value) after
  | identifier (tag : element.name = "mi" ∨ element.name = "mtext") (named : element.value.isEmpty = false) :
      FactorForm factor expression (element :: after) (.identifier element.value) after
  | call (tag : element.name = "mi" ∨ element.name = "mtext") (named : element.value.isEmpty = false)
      (applies : sign.operator? = some .application) (read : Arguments expression before arguments after)
      (fits : ∀ expected, Builtin.arityOf? element.value = some expected → arguments.length = expected) :
      FactorForm factor expression (element :: sign :: before) (.call element.value arguments) after
  | emptyGroup (tag : element.name = "mrow" ∨ element.name = "mfenced") (none : element.children = []) :
      FactorForm factor expression (element :: after) .empty after
  | group (tag : element.name = "mrow" ∨ element.name = "mfenced")
      (read : expression element.children value []) :
      FactorForm factor expression (element :: after) value after
  | signed (op : UnaryOp) (spells : sign.operator? = some (unarySign op)) (read : factor before operand after) :
      FactorForm factor expression (sign :: before) (.unary op operand) after
  | enclosed (opens : opening.operator? = some (.opening bracket))
      (read : expression before value (closing :: after))
      (closes : closing.operator? = some (.closing bracket)) :
      FactorForm factor expression (opening :: before) value after
  | fraction (tag : element.name = "mfrac") (read : Pair expression element.children first second) :
      FactorForm factor expression (element :: after) (.binary .div first second) after
  | power (tag : element.name = "msup") (read : Pair expression element.children first second) :
      FactorForm factor expression (element :: after) (.call "pow" [first, second]) after
  | root (tag : element.name = "mroot") (read : Pair expression element.children first second) :
      FactorForm factor expression (element :: after) (.call "root" [first, second]) after
  | squareRoot (tag : element.name = "msqrt") (read : expression element.children value []) :
      FactorForm factor expression (element :: after) (.call "sqrt" [value]) after

section Factors

variable {factor expression : Rule Formula} {row left : Row} {value : Formula} {element : Element}

/-- The rule apart from its row: a choice between rules can be split only there. -/
theorem rule_of_ok {α : Type} {value : α} {rule : Rule α} (ran : rule row = .ok value left) :
    ∃ same, rule = same ∧ same row = .ok value left :=
  ⟨rule, rfl, ran⟩

private theorem number_ok (ran : Grammar.number row = .ok value left) :
    ∃ element number, row.rest = element :: left.rest ∧ element.name = "mn" ∧
      Number.ofText? element.value = some number ∧ value = .number number := by
  obtain ⟨element, middle, taken, rest⟩ := bind_ok ran
  obtain ⟨shape, tag⟩ := take_ok taken
  split at rest
  · cases rest
  · obtain ⟨rule, same, rest⟩ := rule_of_ok rest
    split at same
    · rename_i number spells
      subst same
      cases rest
      exact ⟨element, number, shape, tag, spells, rfl⟩
    · subst same
      cases rest

theorem identifier_ok (ran : Grammar.identifier row = .ok name left) :
    ∃ element, row.rest = element :: left.rest ∧ (element.name = "mi" ∨ element.name = "mtext") ∧
      element.value.isEmpty = false ∧ element.value = name := by
  rw [Grammar.identifier, get_bind] at ran
  cases shape : row.rest with
  | nil =>
    rw [shape] at ran
    cases ran
  | cons element rest =>
    rw [shape] at ran
    dsimp only at ran
    split at ran
    · rename_i tag
      obtain ⟨done, middle, moved, more⟩ := bind_ok ran
      cases moved
      split at more
      · cases more
      · rename_i named
        cases more
        exact ⟨element, by simp [Row.advance, shape], tag, by simpa using named, rfl⟩
    · cases ran

private theorem invocation_ok (called : Grammar.invocation name arguments line = .ok value) :
    value = .call name arguments ∧
      ∀ expected, Builtin.arityOf? name = some expected → arguments.length = expected := by
  unfold Grammar.invocation at called
  split at called
  · rename_i known
    split at called
    · rename_i fits
      cases called
      refine ⟨rfl, fun expected is => ?_⟩
      cases known.symm.trans is
      exact fits
    · cases called
  · rename_i unknown
    cases called
    exact ⟨rfl, fun expected is => nomatch unknown.symm.trans is⟩

private theorem argumentsWith_ok (advances : Advances (Gives expression))
    (ran : Grammar.argumentsWith expression row = .ok values left) :
    Arguments (Gives expression) row.rest values left.rest := by
  rw [Grammar.argumentsWith, operator?_bind] at ran
  obtain ⟨rule, same, ran⟩ := rule_of_ok ran
  split at same
  · rename_i bracket opens
    subst same
    exact .bracketed (bracketed_ok opens ran)
  · subst same
    obtain ⟨element, shape, read⟩ := listElement_ok advances ran
    exact shape ▸ .element read

theorem operandWith_ok (ran : Grammar.operandWith expression construct row = .ok value left) :
    ∃ element, row.rest = element :: left.rest ∧ Gives expression [element] value [] ∧
      value.isEmpty = false := by
  rw [Grammar.operandWith, get_bind] at ran
  obtain ⟨window, middle, taken, more⟩ := bind_ok ran
  obtain ⟨operand, last, ranInside, rest⟩ := bind_ok more
  obtain ⟨element, shape, rfl⟩ := takeWindow_ok taken
  obtain ⟨read, rfl⟩ := within_whole_ok ranInside
  split at rest
  · cases rest
  · rename_i filled
    cases rest
    exact ⟨element, shape, read, by simpa using filled⟩

private theorem pairWith_ok (ran : Grammar.pairWith expression element row = .ok pair left) :
    left = row.advance ∧ Pair (Gives expression) element.children pair.1 pair.2 := by
  obtain ⟨done, middle, moved, more⟩ := bind_ok ran
  cases moved
  split at more
  · rename_i two
    obtain ⟨⟨last, read⟩, rfl⟩ := within_ok more
    obtain ⟨first, behind, readFirst, more⟩ := bind_ok read
    obtain ⟨second, ending, readSecond, more⟩ := bind_ok more
    cases more
    obtain ⟨left, shapeFirst, readLeft, filledLeft⟩ := operandWith_ok readFirst
    obtain ⟨right, shapeSecond, readRight, filledRight⟩ := operandWith_ok readSecond
    have children : element.children = left :: right :: last.rest := by
      rw [← shapeSecond]
      exact shapeFirst
    have ended : last.rest = [] := by
      rw [children] at two
      simpa using two
    exact ⟨rfl, ⟨left, right, ended ▸ children, readLeft, readRight⟩, filledLeft, filledRight⟩
  · cases more

private theorem groupWith_ok (shape : row.rest = element :: rest)
    (tag : element.name = "mrow" ∨ element.name = "mfenced")
    (ran : Grammar.groupWith factor element row = .ok value left) :
    FactorForm (Gives factor) (Gives (Grammar.expressionWith factor)) row.rest value left.rest := by
  obtain ⟨done, middle, moved, more⟩ := bind_ok ran
  cases moved
  rw [shape]
  split at more
  · rename_i none
    cases more
    simpa [Row.advance, shape] using FactorForm.emptyGroup tag (List.isEmpty_iff.mp none)
  · obtain ⟨read, rfl⟩ := within_whole_ok more
    simpa [Row.advance, shape] using FactorForm.group tag read

private theorem squareRootWith_ok (shape : row.rest = element :: rest) (tag : element.name = "msqrt")
    (ran : Grammar.squareRootWith factor element row = .ok value left) :
    FactorForm (Gives factor) (Gives (Grammar.expressionWith factor)) row.rest value left.rest := by
  obtain ⟨done, middle, moved, more⟩ := bind_ok ran
  cases moved
  rw [shape]
  split at more
  · cases more
  · obtain ⟨radicand, last, ranInside, more⟩ := bind_ok more
    cases more
    obtain ⟨read, rfl⟩ := within_whole_ok ranInside
    simpa [Row.advance, shape] using FactorForm.squareRoot tag read

private theorem namedWith_ok (advances : Advances (Gives (Grammar.expressionWith factor)))
    (ran : Grammar.namedWith factor element row = .ok value left) :
    FactorForm (Gives factor) (Gives (Grammar.expressionWith factor)) row.rest value left.rest := by
  obtain ⟨name, middle, ranName, more⟩ := bind_ok ran
  obtain ⟨named, shapeNamed, tag, filled, rfl⟩ := identifier_ok ranName
  rw [shapeNamed]
  rw [operator?_bind] at more
  split at more
  · rename_i found
    obtain ⟨sign, behind, taken, more⟩ := bind_ok more
    obtain ⟨arguments, last, ranArguments, more⟩ := bind_ok more
    obtain ⟨shapeSign, applies⟩ := take_sign found taken
    have read := argumentsWith_ok advances ranArguments
    obtain ⟨rule, same, more⟩ := rule_of_ok more
    split at same
    · rename_i call called
      subst same
      cases more
      obtain ⟨rfl, fits⟩ := invocation_ok called
      exact shapeSign ▸ .call tag filled applies read fits
    · subst same
      cases more
  · cases more
    exact .identifier tag filled

private theorem signedWith_ok (shape : row.rest = element :: rest)
    (ran : Grammar.signedWith factor element row = .ok value left) :
    FactorForm (Gives factor) (Gives (Grammar.expressionWith factor)) row.rest value left.rest := by
  have spells := operator?_cons shape
  have signed (op : UnaryOp) (found : element.operator? = some (unarySign op))
      (ran : (take "mo" >>= fun _ => factor >>= fun operand => pure (.unary op operand)) row = .ok value left) :
      FactorForm (Gives factor) (Gives (Grammar.expressionWith factor)) row.rest value left.rest := by
    obtain ⟨sign, behind, taken, more⟩ := bind_ok ran
    obtain ⟨operand, last, read, more⟩ := bind_ok more
    cases more
    obtain ⟨shape, spells⟩ := take_sign (spells.trans found) taken
    exact shape ▸ .signed op spells (gives_of_ok read)
  obtain ⟨rule, same, ran⟩ := rule_of_ok ran
  unfold Grammar.signedWith at same
  split at same
  · rename_i found
    subst same
    exact signed .plus found ran
  · rename_i found
    subst same
    exact signed .minus found ran
  · rename_i bracket found
    subst same
    obtain ⟨opening, behind, taken, more⟩ := bind_ok ran
    obtain ⟨inside, ending, read, more⟩ := bind_ok more
    obtain ⟨done, last, closed, more⟩ := bind_ok more
    cases more
    obtain ⟨shape, opens⟩ := take_sign (spells.trans found) taken
    obtain ⟨closing, shapeClosing, closes⟩ := close_ok closed
    exact shape ▸ .enclosed opens (shapeClosing ▸ gives_of_ok read) closes
  all_goals
    subst same
    cases ran

/-- A form with two operands makes a formula of them. -/
theorem pairForm_ok (form : Formula → Formula → Formula) (shape : row.rest = element :: rest)
    (ran : (Grammar.pairWith expression element >>= fun pair => pure (form pair.1 pair.2)) row =
      .ok value left) :
    left.rest = rest ∧
      ∃ first second, Pair (Gives expression) element.children first second ∧ value = form first second := by
  obtain ⟨pair, middle, ranPair, more⟩ := bind_ok ran
  cases more
  obtain ⟨rfl, read⟩ := pairWith_ok ranPair
  exact ⟨by simp [Row.advance, shape], pair.1, pair.2, read, rfl⟩

private theorem factorWith_ok (advances : Advances (Gives (Grammar.expressionWith factor)))
    (ran : Grammar.factorWith factor row = .ok value left) :
    FactorForm (Gives factor) (Gives (Grammar.expressionWith factor)) row.rest value left.rest := by
  rw [Grammar.factorWith, get_bind] at ran
  cases shape : row.rest with
  | nil =>
    rw [shape] at ran
    cases ran
  | cons element rest =>
    rw [shape] at ran
    dsimp only at ran
    obtain ⟨rule, same, ran⟩ := rule_of_ok ran
    rw [← shape]
    -- One case for each tag, in the order of the grammar.
    split at same
    · subst same
      obtain ⟨element, number, shape, tag, spells, rfl⟩ := number_ok ran
      exact shape ▸ .number tag spells
    · subst same
      exact namedWith_ok advances ran
    · subst same
      exact namedWith_ok advances ran
    · rename_i tag
      subst same
      exact groupWith_ok shape (.inl tag) ran
    · rename_i tag
      subst same
      exact groupWith_ok shape (.inr tag) ran
    · subst same
      exact signedWith_ok shape ran
    · rename_i tag
      subst same
      obtain ⟨behind, first, second, read, rfl⟩ := pairForm_ok (Formula.binary .div) shape ran
      rw [shape, behind]
      exact .fraction tag read
    · rename_i tag
      subst same
      obtain ⟨behind, first, second, read, rfl⟩ :=
        pairForm_ok (fun first second => .call "pow" [first, second]) shape ran
      rw [shape, behind]
      exact .power tag read
    · rename_i tag
      subst same
      obtain ⟨behind, first, second, read, rfl⟩ :=
        pairForm_ok (fun first second => .call "root" [first, second]) shape ran
      rw [shape, behind]
      exact .root tag read
    · rename_i tag
      subst same
      exact squareRootWith_ok shape tag ran
    · subst same
      split at ran
      · cases ran
      · cases ran

end Factors

/-! ## All formulas -/

section Induction

variable {α : Type}

/-- What is read takes at least one element. -/
theorem bracketedItems_advances {item : Reading α} (advances : Advances item)
    (read : BracketedItems item bracket before values after) : after.length < before.length := by
  induction read with
  | last read closes =>
    have := advances read
    grind
  | next read separates rest ih =>
    have := advances read
    grind

private theorem bracketed_advances {item : Reading α} (advances : Advances item) :
    Advances (Bracketed item bracket) := by
  intro before values after read
  cases read with
  | none opens closes =>
    simp only [List.length_cons]
    omega
  | items opens read => exact Nat.lt_succ_of_lt (bracketedItems_advances advances read)

private theorem arguments_advance {expression : Reading Formula} (advances : Advances expression) :
    Advances (Arguments expression) := by
  intro before values after read
  cases read with
  | bracketed read => exact bracketed_advances advances read
  | element read => simp

private theorem termRest_length {factor : Reading Formula} (advances : Advances factor)
    (read : TermRest factor run before value after) : after.length ≤ before.length := by
  induction read with
  | done => exact Nat.le_refl _
  | signed op multiplies spells read rest ih =>
    have := advances read
    grind
  | beside read rest ih =>
    have := advances read
    omega

private theorem term_advances {factor : Reading Formula} (advances : Advances factor) : Advances (Term factor) := by
  rintro before value after ⟨first, middle, read, rest⟩
  exact Nat.lt_of_le_of_lt (termRest_length advances rest) (advances read)

private theorem sumRest_length {term : Reading Formula} (advances : Advances term)
    (read : SumRest term sum before value after) : after.length ≤ before.length := by
  induction read with
  | done => exact Nat.le_refl _
  | next op adds spells read rest ih =>
    have := advances read
    grind

private theorem sum_advances {term : Reading Formula} (advances : Advances term) : Advances (Sum term) := by
  rintro before value after ⟨first, middle, read, rest⟩
  exact Nat.lt_of_le_of_lt (sumRest_length advances rest) (advances read)

private theorem factorForm_advances {factor expression : Reading Formula} (factors : Advances factor)
    (expressions : Advances expression) : Advances (FactorForm factor expression) := by
  intro before value after read
  cases read with
  | number | identifier | emptyGroup | group | fraction | power | root | squareRoot => exact Nat.lt_succ_self _
  | call tag named applies read fits =>
    have := arguments_advance expressions read
    simp only [List.length_cons]
    omega
  | signed op spells read => exact Nat.lt_succ_of_lt (factors read)
  | enclosed opens read closes =>
    have := expressions read
    grind

private theorem expressionWith_advances {factor : Rule Formula} (advances : Advances (Gives factor)) :
    Advances (Gives (Grammar.expressionWith factor)) := by
  have terms : Advances (Gives (Grammar.termWith factor)) :=
    fun _ _ _ read => term_advances advances (gives_termWith read)
  exact fun _ _ _ read => sum_advances terms (gives_expressionWith read)

theorem factorAt_advances (depth : Nat) : Advances (Gives (Grammar.factorAt depth)) := by
  induction depth with
  | zero =>
    rintro before value after ⟨row, left, rfl, rfl, ran⟩
    cases ran
  | succ depth ih =>
    rintro before value after ⟨row, left, rfl, rfl, ran⟩
    have inside := expressionWith_advances ih
    exact factorForm_advances ih inside (factorWith_ok inside ran)

/-- A property that terms have if their factors do, sums if their terms do, and factors if the factors and
the expressions inside them do. -/
structure Compositional (holds : Reading Formula) : Prop where
  ofTerm : ∀ {factor}, Entails factor holds → Entails (Term factor) holds
  ofSum : ∀ {term}, Entails term holds → Entails (Sum term) holds
  ofFactor : ∀ {factor expression}, Entails factor holds → Entails expression holds →
    Entails (FactorForm factor expression) holds

private theorem expressionWith_entails (compositional : Compositional holds) (factors : Entails (Gives factor) holds) :
    Entails (Gives (Grammar.expressionWith factor)) holds := by
  have terms := entails_trans gives_termWith (compositional.ofTerm factors)
  exact entails_trans gives_expressionWith (compositional.ofSum terms)

private theorem factorAt_entails (compositional : Compositional holds) (depth : Nat) :
    Entails (Gives (Grammar.factorAt depth)) holds := by
  induction depth with
  | zero =>
    rintro before value after ⟨row, left, rfl, rfl, ran⟩
    cases ran
  | succ depth ih =>
    rintro before value after ⟨row, left, rfl, rfl, ran⟩
    exact compositional.ofFactor ih (expressionWith_entails compositional ih)
      (factorWith_ok (expressionWith_advances (factorAt_advances depth)) ran)

/-- What holds of the parts of a formula whenever it holds of theirs holds of every formula that is read. -/
theorem expression_entails (compositional : Compositional holds) :
    Entails (Gives Grammar.expression) holds := by
  rintro before value after ⟨row, left, rfl, rfl, ran⟩
  exact expressionWith_entails compositional (factorAt_entails compositional (row.weight + 1)) (gives_of_ok ran)

end Induction

/-! ## Statements -/

/-- A name that stands for itself. -/
inductive Name : Reading String where
  | intro (tag : element.name = "mi" ∨ element.name = "mtext") (named : element.value.isEmpty = false) :
      Name (element :: after) element.value after

/-- The list of parameters that fills the rest of a head. -/
inductive Parameters (rest : List Element) (parameters : List String) : Prop where
  | held (shape : rest = [element]) (read : HeldList (Gives Grammar.identifier) element parameters)
  | listing (read : Listing (Gives Grammar.identifier) rest parameters)

/-- The head of a function that is declared. -/
structure Head (line : Option Nat) (children : List Element) (name : String) (parameters : List String) :
    Prop where
  shape : ∃ sign rest, sign.operator? = some .application ∧ Name children name (sign :: rest) ∧
    Parameters rest parameters
  notBuiltin : Builtin.ofName? name = none
  notConstant : name ≠ piName
  checked : Grammar.checkParameters name line [] parameters = .ok ()

/-- The ways to read the body of a statement, which fills its row. -/
inductive BodyForm (expression : Reading Formula) : List Element → Formula → Prop where
  | assignment (equals : sign.operator? = some .equals) (named : Name before name (sign :: rest))
      (notConstant : name ≠ piName) (read : expression rest value []) :
      BodyForm expression before (.assignment name value)
  | definition (equals : sign.operator? = some .equals) (tag : group.name = "mrow")
      (head : Head group.line group.children name parameters) (read : expression rest value []) :
      BodyForm expression (group :: sign :: rest) (.definition name parameters value)
  | expression (read : expression before value []) : BodyForm expression before value

section Statements

variable {row left : Row} {value : Formula} {element : Element}

theorem gives_identifier : Entails (Gives Grammar.identifier) Name := by
  rintro before name after ⟨row, left, rfl, rfl, ran⟩
  obtain ⟨element, shape, tag, named, rfl⟩ := identifier_ok ran
  exact shape ▸ .intro tag named

private theorem name_advances : Advances (Gives Grammar.identifier) := by
  intro before name after read
  cases gives_identifier read with
  | intro tag named => exact Nat.lt_succ_self _

private theorem checked_ok {head : String × List String}
    (ran : (match Grammar.checkParameters name line [] parameters with
      | .ok _ => pure (name, parameters)
      | .error fault => throw fault : Rule (String × List String)) row = .ok head left) :
    head = (name, parameters) ∧ Grammar.checkParameters name line [] parameters = .ok () := by
  obtain ⟨rule, same, ran⟩ := rule_of_ok ran
  split at same
  · rename_i checked
    subst same
    cases ran
    exact ⟨rfl, checked⟩
  · subst same
    cases ran

/-- A head is read to its end, although nothing asks for that end. -/
theorem head_ok {head : String × List String} (ran : Grammar.head line row = .ok head left) :
    Head line row.rest head.1 head.2 := by
  obtain ⟨name, middle, ranName, more⟩ := bind_ok ran
  split at more
  · cases more
  rename_i free
  obtain ⟨notBuiltin, notConstant⟩ := not_or.mp free
  rw [operator?_bind] at more
  split at more
  · rename_i found
    obtain ⟨sign, behind, taken, more⟩ := bind_ok more
    obtain ⟨shape, applies⟩ := take_sign found taken
    have named : Name row.rest name (sign :: behind.rest) := shape ▸ gives_identifier (gives_of_ok ranName)
    have unreserved : Builtin.ofName? name = none := by simpa using notBuiltin
    rw [get_bind] at more
    split at more
    · rename_i single
      obtain ⟨listed, last, ranList, more⟩ := bind_ok more
      obtain ⟨rfl, checked⟩ := checked_ok more
      obtain ⟨element, shapeList, read⟩ := listElement_ok name_advances ranList
      have only : behind.rest = [element] := by
        rw [Row.remaining, shapeList] at single
        rw [shapeList]
        simpa using single
      exact ⟨⟨sign, behind.rest, applies, named, .held only read⟩, unreserved, notConstant, checked⟩
    · obtain ⟨listed, last, ranList, more⟩ := bind_ok more
      obtain ⟨rfl, checked⟩ := checked_ok more
      obtain ⟨read, ended⟩ := list_ok name_advances ranList
      exact ⟨⟨sign, behind.rest, applies, named, .listing read⟩, unreserved, notConstant, checked⟩
  · cases more

private theorem assignment_ok (shape : row.rest = element :: sign :: rest) (equals : sign.operator? = some .equals)
    (ran : Grammar.assignment element row = .ok value left) (ended : left.rest = []) :
    BodyForm (Gives Grammar.expression) row.rest value := by
  obtain ⟨name, middle, ranName, more⟩ := bind_ok ran
  split at more
  · cases more
  · rename_i notConstant
    obtain ⟨taken, behind, ranSign, more⟩ := bind_ok more
    obtain ⟨inside, last, read, more⟩ := bind_ok more
    cases more
    have named := gives_identifier (gives_of_ok ranName)
    obtain ⟨shapeSign, -⟩ := take_ok ranSign
    rw [shapeSign] at named
    have same : sign = taken := by
      obtain ⟨front, shapeName, -⟩ := identifier_ok ranName
      rw [shape, shapeSign] at shapeName
      cases shapeName
      rfl
    exact .assignment (same ▸ equals) named notConstant (ended ▸ gives_of_ok read)

private theorem definition_ok (shape : row.rest = element :: sign :: rest) (equals : sign.operator? = some .equals)
    (tag : element.name = "mrow") (ran : Grammar.definition element row = .ok value left)
    (ended : left.rest = []) : BodyForm (Gives Grammar.expression) row.rest value := by
  obtain ⟨done, middle, moved, more⟩ := bind_ok ran
  cases moved
  obtain ⟨head, same, ranHead, more⟩ := bind_ok more
  obtain ⟨taken, behind, ranSign, more⟩ := bind_ok more
  obtain ⟨inside, last, read, more⟩ := bind_ok more
  cases more
  obtain ⟨⟨unread, readHead⟩, rfl⟩ := within_ok ranHead
  obtain ⟨shapeSign, -⟩ := take_ok ranSign
  simp only [Row.advance, shape, List.tail_cons] at shapeSign
  cases shapeSign
  rw [shape]
  exact .definition equals tag (head_ok readHead) (ended ▸ gives_of_ok read)

/-- The body of a statement that is read to the end of its row. -/
theorem body_ok (ran : Grammar.body row = .ok value left) (ended : left.rest = []) :
    BodyForm (Gives Grammar.expression) row.rest value := by
  rw [Grammar.body, get_bind] at ran
  split at ran
  · rename_i found
    obtain ⟨sign, second, equals⟩ := Option.bind_eq_some_iff.mp found
    obtain ⟨element, rest, shape⟩ : ∃ element rest, row.rest = element :: sign :: rest := by
      unfold Row.following? at second
      cases shape : row.rest with
      | nil => simp [shape] at second
      | cons element tail =>
        rw [shape, List.tail_cons, List.head?_eq_some_iff] at second
        obtain ⟨rest, rfl⟩ := second
        exact ⟨element, rest, rfl⟩
    rw [Grammar.declaration, get_bind, shape] at ran
    dsimp only at ran
    obtain ⟨rule, same, ran⟩ := rule_of_ok ran
    split at same
    · subst same
      exact assignment_ok shape equals ran ended
    · subst same
      exact assignment_ok shape equals ran ended
    · rename_i tag
      subst same
      exact definition_ok shape equals tag ran ended
    · subst same
      cases ran
  · exact .expression (ended ▸ gives_of_ok ran)

theorem statement_ok (accepted : Statement.ofElement element = .ok statement) :
    element.name = "math" ∧ statement.line = element.line ∧
      BodyForm (Gives Grammar.expression) element.statementRow.rest statement.body := by
  unfold Statement.ofElement at accepted
  split at accepted
  · rename_i tag
    split at accepted
    · rename_i body left ran
      cases accepted
      obtain ⟨ran, ended⟩ := whole_ok ran
      exact ⟨tag, rfl, body_ok ran ended⟩
    · cases accepted
  · cases accepted

end Statements

end FormulaSheet.FormulaReading
