import FormulaSheet.Proofs.LimitedReading

/-! Every rule of the grammar makes progress and stays in its window. A row is a window of elements and the place
reached in it; a rule moves that place forward only, never past the end, and never touches the window or its line. What
succeeds has read at least one element, and so has every round of a loop that is followed by another. This is why
reading ends below a limit that only the size of the row sets, whatever is tried and abandoned on the way. -/
namespace FormulaSheet.ReadingProgress
open Markup (Element)
open Rule FaultLines NestingDepth
open LimitedReading hiding expression term factor bracketed list listElement whole

variable {α β σ : Type}

/-- The row of a window of elements, of which the first `index` have been read. -/
def window (elements : List Element) (owner : Option Nat) (index : Nat) : Row :=
  ⟨index, elements.drop index, owner⟩

/-- The row is that of the same window, at `start` or further on. -/
def Later (elements : List Element) (owner : Option Nat) (start : Nat) (left : Row) : Prop :=
  ∃ index, start ≤ index ∧ index ≤ elements.length ∧ left = window elements owner index

/-- A rule succeeds further on in the window that it is given, and fails where it began or further on. -/
def ReadsForward (rule : Rule α) : Prop :=
  ∀ elements owner index, index ≤ elements.length →
    match rule (window elements owner index) with
    | .ok _ left => Later elements owner (index + 1) left
    | .error _ left => Later elements owner index left

/-- Every round of a loop ends in the window that it is given, and further on if the loop goes on. The last round has
read at least `last` elements. -/
def RoundsForward (last : Nat) (round : σ → Walk (ForInStep σ)) : Prop :=
  ∀ state elements owner index, index ≤ elements.length →
    match round state (window elements owner index) with
    | some (.ok (.yield _), left) => Later elements owner (index + 1) left
    | some (.ok (.done _), left) => Later elements owner (index + last) left
    | some (.error _, left) => Later elements owner index left
    | none => False

/-! ## Windows and rows -/

private theorem passed_iff_later (inside : index ≤ elements.length) :
    Passed count (window elements owner index) left ↔ Later elements owner (index + count) left := by
  constructor
  · rintro ⟨read, enough, shape, taken, same⟩
    obtain ⟨place, rest, line⟩ := left
    dsimp only [window] at shape taken same
    have counted := congrArg List.length shape
    rw [List.length_drop, List.length_append] at counted
    refine ⟨index + read.length, by omega, by omega, ?_⟩
    rw [window, ← List.drop_drop, shape, List.drop_left, taken, same]
  · rintro ⟨place, further, within, rfl⟩
    obtain ⟨more, rfl⟩ := Nat.exists_eq_add_of_le (Nat.le_of_add_right_le further)
    refine ⟨(elements.drop index).take more, ?_, ?_, ?_, rfl⟩
    · rw [List.length_take, List.length_drop]
      omega
    · rw [window, window, ← List.drop_drop, List.take_append_drop]
    · rw [window, window, List.length_take, List.length_drop]
      dsimp only
      omega

/-- The elements that have been read do not matter, so that every row is one of some window. -/
theorem exists_window (row : Row) :
    ∃ elements owner index, index ≤ elements.length ∧ row = window elements owner index := by
  refine ⟨List.replicate row.taken ⟨"", "", 0, []⟩ ++ row.rest, row.owner, row.taken, by simp, ?_⟩
  rw [window, List.drop_left' (by simp)]

/-! ## Walks that move forward -/

/-- A walk ends on a row, behind as many elements as its value needs. -/
def Moves (count : α → Nat) (walk : Walk α) (row : Row) : Prop :=
  match walk row with
  | some (.ok value, left) => Passed (count value) row left
  | some (.error _, left) => Passed 0 row left
  | none => False

private theorem moves_congr {walk other : Walk α} (same : walk row = other row) (moves : Moves count other row) :
    Moves count walk row := by
  rw [Moves, same]
  exact moves

private theorem moves_ofRule {rule : Rule α} (behaves : Behaves on count rule row) :
    Moves (fun _ => count) (ofRule rule) row := by
  unfold Behaves at behaves
  unfold Moves ofRule
  cases ran : rule row with
  | ok value left =>
    rw [ran] at behaves
    exact behaves
  | error fault left =>
    rw [ran] at behaves
    exact behaves.1

/-- On no lines in particular, every row is covered. -/
theorem moves_of_covered {rule : Rule α} {row : Row}
    (behaves : Covered (fun _ => True) (row.weight + 1) row → Behaves (fun _ => True) count rule row) :
    Moves (fun _ => count) (ofRule rule) row :=
  moves_ofRule (behaves (covered_of_light (Nat.lt_succ_self row.weight)))

private theorem moves_value {walk : Walk α} (ran : walk row = some (.ok value, row)) (free : count value = 0) :
    Moves count walk row := by
  rw [Moves, ran]
  dsimp only
  rw [free]
  exact passed_nothing row

/-- What is read first counts for the whole. -/
theorem moves_bind {walk : Walk α} {next : α → Walk β} {count : β → Nat} (first : Moves (fun _ => a) walk row)
    (rest : ∀ value left, Moves (fun result => count result - a) (next value) left) :
    Moves count (walk >>= next) row := by
  unfold Moves at first
  split at first
  · rename_i value middle ran
    have later := rest value middle
    unfold Moves at later ⊢
    rw [bind_ended ran]
    split at later
    · exact passed_weaker (passed_trans first later) (by dsimp only; omega)
    · exact passed_weaker (passed_trans first later) (Nat.zero_le _)
    · exact later
  · rename_i fault left ran
    rw [Moves, bind_failed ran]
    exact first
  · exact first.elim

private theorem moves_rules {rule : Rule α} {next : α → Rule β} {count : β → Nat}
    (first : Moves (fun _ => a) (ofRule rule) row)
    (rest : ∀ value left, Moves (fun result => count result - a) (ofRule (next value)) left) :
    Moves count (ofRule (rule >>= next)) row :=
  moves_congr (ends_bind rfl fun _ _ _ => rfl).symm (moves_bind first rest)

private theorem reads_window_iff {rule : Rule α} (inside : index ≤ elements.length) :
    Moves (fun _ => 1) (ofRule rule) (window elements owner index) ↔
      match rule (window elements owner index) with
      | .ok _ left => Later elements owner (index + 1) left
      | .error _ left => Later elements owner index left := by
  unfold Moves ofRule
  cases rule (window elements owner index) with
  | ok value left => exact passed_iff_later inside
  | error fault left => exact passed_iff_later inside

private theorem readsForward_iff {rule : Rule α} : ReadsForward rule ↔ ∀ row, Moves (fun _ => 1) (ofRule rule) row := by
  constructor
  · intro forward row
    obtain ⟨elements, owner, index, inside, rfl⟩ := exists_window row
    exact (reads_window_iff inside).mpr (forward elements owner index inside)
  · intro moves elements owner index inside
    exact (reads_window_iff inside).mp (moves _)

/-- A rule that is closed at a depth which fits the row reads forward if it is steady at every depth. -/
theorem readsForward_closed {rule : Rule α} (closed : Nat → Rule α)
    (same : ∀ row, rule row = closed (row.weight + 1) row) (steady : ∀ depth, Steady depth (closed depth)) :
    ReadsForward rule :=
  readsForward_iff.mpr fun row => moves_of_covered fun covered => behaves_congr (same row) (steady _ covered)

/-- What a round has to read. -/
def gain (last : Nat) : ForInStep σ → Nat
  | .yield _ => 1
  | .done _ => last

private theorem roundsForward_of_moves {round : σ → Walk (ForInStep σ)}
    (moves : ∀ state row, Moves (gain last) (round state) row) : RoundsForward last round := by
  intro state elements owner index inside
  have moves := moves state (window elements owner index)
  unfold Moves at moves
  split at moves
  · rename_i step left ran
    rw [ran]
    cases step with
    | yield next => exact (passed_iff_later inside).mp moves
    | done last => exact (passed_iff_later inside).mp moves
  · rename_i ran
    rw [ran]
    exact (passed_iff_later inside).mp moves
  · exact moves.elim

/-! ## Lists in brackets -/

section Lists

variable {item : Rule α} {row : Row}

private theorem moves_take (tag : String) (row : Row) : Moves (fun _ => 1) (ofRule (take tag)) row :=
  moves_of_covered behaves_take

private theorem moves_close (bracket : Bracket) (row : Row) : Moves (fun _ => 1) (ofRule (close bracket)) row :=
  moves_of_covered behaves_close

private theorem moves_bracketedItems (moves : ∀ row, Moves (fun _ => 1) (ofRule item) row) (limit : Nat) (row : Row) :
    Moves (fun _ => 0) (ofRule (bracketedItems bracket item limit)) row := by
  induction limit generalizing row with
  | zero => exact passed_nothing row
  | succ limit ih =>
    rw [bracketedItems]
    refine moves_rules (moves row) fun first middle => ?_
    change Moves _ (ofRule (if middle.operator? = some .comma then _ else _)) middle
    split
    · refine moves_rules (moves_take "mo" middle) fun comma left => ?_
      exact moves_rules (ih left) fun values last => moves_value rfl rfl
    · exact moves_rules (moves_close bracket middle) fun _ last => moves_value rfl rfl

/-- A list in brackets reads forward if its items do. -/
theorem moves_bracketed (moves : ∀ row, Moves (fun _ => 1) (ofRule item) row) (bracket : Bracket) (row : Row) :
    Moves (fun _ => 1) (ofRule (bracketed bracket item)) row := by
  rw [bracketed]
  refine moves_rules (moves_take "mo" row) fun opening middle => ?_
  change Moves _ (ofRule (if middle.operator? = some (.closing bracket) then _ else _)) middle
  split
  · exact moves_rules (moves_take "mo" middle) fun closing last => moves_value rfl rfl
  · exact moves_bracketedItems moves _ middle

end Lists

/-! ## Rounds -/

section Rounds

variable {walk : Walk Formula} {item : Walk α}

/-- A value behind a sign. -/
theorem moves_behind_sign {walk : Walk α} (moves : ∀ row, Moves (fun _ => 1) walk row) (gather : α → σ) (row : Row) :
    Moves (gain 0) (ofRule (take "mo") >>= fun _ => walk >>= fun value => pure (.yield (gather value))) row :=
  moves_bind (moves_take "mo" row) fun _ middle => moves_bind (moves middle) fun _ _ => moves_value rfl rfl

private theorem moves_sumRound (terms : ∀ row, Moves (fun _ => 1) walk row) (sum : Formula) (row : Row) :
    Moves (gain 0) (sumRound walk sum) row := by
  by_cases signed : ∃ op, (op = .add ∨ op = .sub) ∧ row.operator? = some (FormulaReading.binarySign op)
  · obtain ⟨op, adds, found⟩ := signed
    exact moves_congr (sumRound_next op adds found) (moves_behind_sign terms _ row)
  · refine moves_value (sumRound_ends ?_ ?_) rfl
    · exact fun found => signed ⟨.add, .inl rfl, found⟩
    · exact fun found => signed ⟨.sub, .inr rfl, found⟩

private theorem moves_termRound (factors : ∀ row, Moves (fun _ => 1) walk row) (run : List Formula) (row : Row) :
    Moves (gain 0) (termRound walk run) row := by
  rcases term_continues row with ended | ⟨op, multiplies, found⟩ | ⟨element, rest, shape, unsigned⟩
  · exact moves_value (termRound_ends ended) rfl
  · exact moves_congr (termRound_signed op multiplies found) (moves_behind_sign factors _ row)
  · refine moves_congr (termRound_beside shape unsigned) ?_
    exact moves_bind (factors row) fun _ _ => moves_value rfl rfl

private theorem moves_bracketedRound (moves : ∀ row, Moves (fun _ => 1) item row) (bracket : Bracket) (items : List α)
    (row : Row) : Moves (gain 1) (bracketedRound bracket item items) row := by
  rw [bracketedRound]
  refine moves_bind (moves row) fun value middle => ?_
  change Moves _ (if middle.operator? = some .comma then _ else _) middle
  split
  · exact moves_bind (moves_take "mo" middle) fun _ _ => moves_value rfl rfl
  · exact moves_bind (moves_close bracket middle) fun _ _ => moves_value rfl rfl

private theorem moves_finish (row : Row) : Moves (fun _ => 0) (ofRule finish) row :=
  moves_of_covered behaves_finish

private theorem moves_bareRound (moves : ∀ row, Moves (fun _ => 1) item row) (items : List α) (row : Row) :
    Moves (gain 0) (bareRound item items) row := by
  rw [bareRound]
  change Moves (gain 0) (if row.isExhausted = true then _ else _) row
  split
  · exact moves_value rfl rfl
  · refine moves_bind (moves row) fun value middle => ?_
    change Moves _ (if middle.operator? = some .comma then _ else _) middle
    split
    · exact moves_bind (moves_take "mo" middle) fun _ _ => moves_value rfl rfl
    · exact moves_bind (moves_finish middle) fun _ _ => moves_value rfl rfl

/-- What is read elsewhere leaves the row as it is. -/
theorem moves_elsewhere {walk : Walk α} {inside : Row} (moves : Moves count walk inside) (row : Row) :
    Moves (fun _ => 0) (elsewhere inside walk) row := by
  unfold Moves at moves
  split at moves
  · rename_i value left ran
    rw [Moves, elsewhere, ran]
    exact passed_nothing row
  · rename_i fault left ran
    rw [Moves, elsewhere, ran]
    exact passed_nothing row
  · exact moves.elim

private theorem moves_fencedRound (moves : ∀ row, Moves (fun _ => 1) item row) (items : List α) (row : Row) :
    Moves (gain 0) (fencedRound item items) row := by
  have filling (inside : Row) : Moves (fun _ => 1) (LimitedReading.whole item) inside := by
    rw [LimitedReading.whole]
    refine moves_bind (moves inside) fun value left => ?_
    exact moves_bind (moves_finish left) fun _ _ => moves_value rfl rfl
  rw [fencedRound]
  change Moves (gain 0) (if row.isExhausted = true then _ else
    ofRule Rule.operator? >>= fun operator => if operator = some .comma then _ else _) row
  split
  · exact moves_value rfl rfl
  · change Moves (gain 0) (if row.operator? = some .comma then _ else _) row
    split
    · exact moves_bind (moves_take "mo" row) fun _ _ => moves_value rfl rfl
    · refine moves_bind (moves_of_covered behaves_takeWindow) fun inside middle => ?_
      exact moves_bind (moves_elsewhere (filling inside) middle) fun _ _ => moves_value rfl rfl

end Rounds

/-! ## Rules -/

private theorem readsForward_factor : ReadsForward Grammar.factor :=
  readsForward_closed Grammar.factorAt (fun _ => factor_eq (Nat.lt_succ_self _)) steady_factorAt

private theorem readsForward_term : ReadsForward Grammar.term :=
  readsForward_closed _ term_eq fun depth => steady_termWith (steady_factorAt depth)

private theorem readsForward_expression : ReadsForward Grammar.expression :=
  readsForward_closed _ expression_eq fun depth => steady_expressionWith (steady_factorAt depth)

private theorem below_of_readsForward {item : Rule α} (forward : ReadsForward item) (bound : Nat) :
    EndsBelow bound (ofRule item) item where
  ends _ := rfl
  reads {row value left} _ ran := by
    have moves := readsForward_iff.mp forward row
    rw [Moves, ofRule, ran] at moves
    exact moves

/-- **Every rule makes progress, stays in its window and ends.** On a window of elements and at any place in it, a rule
that succeeds has moved on by at least one element and one that fails has not moved back; both stay inside the window
and leave its elements and its line as they are. A list in brackets does so with any rule for its items that does. Every
round of a loop that is followed by another moves on as well. And under any limit on rounds and nesting that is above
the number of elements in and below the row, the walks of the grammar end exactly as its rules do: none of them reaches
the limit, not even in the attempt that a list abandons. -/
theorem rules_make_progress_and_end :
    (ReadsForward Grammar.expression ∧ ReadsForward Grammar.term ∧ ReadsForward Grammar.factor ∧
      ReadsForward Grammar.identifier ∧ ReadsForward Grammar.number ∧
      ∀ {α : Type} (bracket : Bracket) (item : Rule α), ReadsForward item → ReadsForward (bracketed bracket item)) ∧
    (RoundsForward 0 (sumRound (ofRule Grammar.term)) ∧ RoundsForward 0 (termRound (ofRule Grammar.factor)) ∧
      ∀ {α : Type} (item : Rule α), ReadsForward item →
        (∀ bracket, RoundsForward 1 (bracketedRound bracket (ofRule item))) ∧
        RoundsForward 0 (bareRound (ofRule item)) ∧ RoundsForward 0 (fencedRound (ofRule item))) ∧
    ∀ (row : Row) (limit : Nat), row.weight < limit →
      LimitedReading.expression limit row = ofRule Grammar.expression row ∧
      LimitedReading.term limit row = ofRule Grammar.term row ∧
      LimitedReading.factor limit row = ofRule Grammar.factor row ∧
      ∀ {α : Type} (item : Rule α), ReadsForward item →
        (∀ bracket, LimitedReading.bracketed limit bracket (ofRule item) row = ofRule (bracketed bracket item) row) ∧
        LimitedReading.list limit (ofRule item) row = ofRule (Rule.list item) row ∧
        LimitedReading.listElement limit (ofRule item) row = ofRule (listElement item) row := by
  refine ⟨⟨readsForward_expression, readsForward_term, readsForward_factor, ?_, ?_, ?_⟩, ⟨?_, ?_, ?_⟩, ?_⟩
  · exact readsForward_closed _ (fun _ => rfl) steady_identifier
  · exact readsForward_closed _ (fun _ => rfl) steady_number
  · intro α bracket item forward
    exact readsForward_iff.mpr (moves_bracketed (readsForward_iff.mp forward) bracket)
  · exact roundsForward_of_moves (moves_sumRound (readsForward_iff.mp readsForward_term))
  · exact roundsForward_of_moves (moves_termRound (readsForward_iff.mp readsForward_factor))
  · intro α item forward
    have moves := readsForward_iff.mp forward
    exact ⟨fun bracket => roundsForward_of_moves (moves_bracketedRound moves bracket),
      roundsForward_of_moves (moves_bareRound moves), roundsForward_of_moves (moves_fencedRound moves)⟩
  · intro row limit enough
    refine ⟨expression_ends enough, term_ends enough, factor_ends enough, fun item forward => ?_⟩
    have below := below_of_readsForward forward limit
    exact ⟨ends_bracketed below (Nat.le_refl _) enough, ends_list below (Nat.le_refl _) enough,
      ends_listElement below (Nat.le_refl _) enough⟩

/-- A sum with the call of `f` on a group `(a)(b)`, whose first bracket closes too early for a list in brackets. -/
def sumWithCall : List Element :=
  [⟨"mi", "x", 1, []⟩, ⟨"mo", "+", 1, []⟩, ⟨"mi", "f", 1, []⟩, ⟨"mo", "\u2061", 1, []⟩,
    ⟨"mrow", "(a)(b)", 1, [
      ⟨"mo", "(", 1, []⟩, ⟨"mi", "a", 1, []⟩, ⟨"mo", ")", 1, []⟩,
      ⟨"mo", "(", 1, []⟩, ⟨"mi", "b", 1, []⟩, ⟨"mo", ")", 1, []⟩]⟩]

/-- Names in a bracket that is not closed. -/
def unclosedNames : List Element :=
  [⟨"mo", "(", 1, []⟩, ⟨"mi", "a", 1, []⟩, ⟨"mo", ",", 1, []⟩, ⟨"mi", "b", 1, []⟩]

theorem abandoned_attempt_ends :
    2 ≤ sumWithCall.length ∧ Later sumWithCall (some 1) 3 (window sumWithCall (some 1) 5) ∧
    LimitedReading.expression 10 (window sumWithCall (some 1) 2) =
      some (.ok (.call "f" [.binary .mul (.identifier "a") (.identifier "b")]), window sumWithCall (some 1) 5) ∧
    ∃ fault left, bracketed .round Grammar.identifier (window unclosedNames (some 1) 0) = .error fault left ∧
      Later unclosedNames (some 1) 0 left := by
  obtain ⟨⟨expressions, -, -, names, -, lists⟩, -, ends⟩ := rules_make_progress_and_end
  refine ⟨by decide, expressions sumWithCall (some 1) 2 (by decide), ?_, _, _, rfl, ?_⟩
  · rw [(ends (window sumWithCall (some 1) 2) 10 (by decide)).1]
    rfl
  · exact lists .round Grammar.identifier names unclosedNames (some 1) 0 (by decide)

end FormulaSheet.ReadingProgress
