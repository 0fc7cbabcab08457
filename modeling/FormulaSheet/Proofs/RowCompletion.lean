import FormulaSheet.Proofs.FormulaReading

/-! When the rules of the grammar succeed. A rule reads a stretch of elements if it gives its value and stops
right behind the stretch, whatever has been read before. A rule that stops where the next element tells it to
needs a condition on what follows: a name must not be applied, a term must end, a sum must end.

Terms and sums gather their operands from the left in a loop. What is shown of them is therefore what the loop
has gathered once it stands behind a stretch; a longer term or sum continues from there. -/
namespace FormulaSheet.RowCompletion
open Markup (Element)
open FormulaReading Rule Sequencing

/-- The operator in front. -/
def operatorAt (elements : List Element) : Option Operator := elements.head?.bind Element.operator?

/-- A rule reads all of `front` and nothing of `back`. -/
def Reads {α : Type} (rule : Rule α) (front : List Element) (value : α) (back : List Element) : Prop :=
  ∀ taken owner, rule ⟨taken, front ++ back, owner⟩ = .ok value ⟨taken + front.length, back, owner⟩

section Steps

variable {α β : Type} {rule : Rule α} {next : α → Rule β} {front middle back : List Element}

theorem reads_pure (value : α) : Reads (pure value) [] value back := fun _ _ => rfl

theorem reads_bind (first : Reads rule front value (middle ++ back))
    (second : Reads (next value) middle result back) : Reads (rule >>= next) (front ++ middle) result back := by
  intro taken owner
  rw [List.append_assoc, bind_of_ok (first taken owner), second, List.length_append, Nat.add_assoc]

theorem reads_map {f : α → β} (read : Reads rule front value back) :
    Reads (rule >>= fun value => pure (f value)) front (f value) back := by
  intro taken owner
  rw [bind_of_ok (read taken owner)]
  rfl

theorem reads_operator {next : Option Operator → Rule β} (found : operatorAt (front ++ back) = operator)
    (read : Reads (next operator) front value back) : Reads (Rule.operator? >>= next) front value back := by
  subst found
  exact read

theorem reads_take (tag : element.name = name) : Reads (take name) [element] element back := by
  intro taken owner
  change (if element.name = name then EStateM.Result.ok element _ else _) = _
  rw [if_pos tag]
  rfl

private theorem reads_sign (spells : sign.operator? = some operator) : Reads (take "mo") [sign] sign back :=
  reads_take (name_of_operator? spells)

/-- A rule that reads a sign first. -/
theorem reads_behind_sign {next : Element → Rule β} (spells : sign.operator? = some operator)
    (read : Reads (next sign) middle result back) : Reads (take "mo" >>= next) (sign :: middle) result back :=
  reads_bind (reads_sign spells) read

theorem take_of_sign (spells : sign.operator? = some operator) :
    take "mo" ⟨taken, sign :: back, owner⟩ = .ok sign ⟨taken + 1, back, owner⟩ :=
  reads_sign spells taken owner

theorem reads_advance : Reads (modify Row.advance) [element] PUnit.unit back := fun _ _ => rfl

theorem reads_whole (read : Reads rule front value []) : Reads (whole rule) front value [] := by
  intro taken owner
  rw [whole, bind_of_ok (read taken owner)]
  rfl

theorem reads_within {inside : Row} (read : Reads rule inside.rest value []) :
    Reads (within inside rule) [] value back := by
  intro taken owner
  have ran := read inside.taken inside.owner
  rw [List.append_nil] at ran
  rw [within, ran]
  rfl

theorem reads_close (closes : closing.operator? = some (.closing bracket)) :
    Reads (close bracket) [closing] PUnit.unit back := by
  have found : operatorAt ([closing] ++ back) = some (.closing bracket) := closes
  refine reads_operator found ?_
  rw [if_pos rfl]
  exact reads_map (reads_sign closes)

end Steps

/-! ## Terms and sums -/

/-- Nothing follows, or an operator in front of which a term ends. -/
def EndsTerm (back : List Element) : Prop :=
  back = [] ∨ ∃ operator, operatorAt back = some operator ∧ operator.endsTerm = true

/-- Nothing follows, or a comma or a closing bracket. -/
def EndsSum (back : List Element) : Prop :=
  back = [] ∨ operatorAt back = some .comma ∨ ∃ bracket, operatorAt back = some (.closing bracket)

/-- The stretch is one factor, unless it is applied to what follows. -/
def ReadsFactor (factor : Rule Formula) (front : List Element) (value : Formula) : Prop :=
  ∀ back, operatorAt back ≠ some .application → Reads factor front value back

/-- The loop of a term that begins with the stretch has gathered `value` behind it. -/
def OpensTerm (factor : Rule Formula) (front : List Element) (value : Formula) : Prop :=
  ∀ back taken owner result, operatorAt back ≠ some .application →
    (∀ limit, back.length ≤ limit →
      Grammar.termTail factor [value] limit ⟨taken + front.length, back, owner⟩ = result) →
    Grammar.termWith factor ⟨taken, front ++ back, owner⟩ = result

/-- The loop of a sum that begins with the stretch has gathered `value` behind it. -/
def OpensSum (factor : Rule Formula) (front : List Element) (value : Formula) : Prop :=
  ∀ back taken owner result, EndsTerm back →
    (∀ limit, back.length ≤ limit →
      Grammar.sumTail (Grammar.termWith factor) value limit ⟨taken + front.length, back, owner⟩ = result) →
    Grammar.expressionWith factor ⟨taken, front ++ back, owner⟩ = result

section Formulas

variable {factor : Rule Formula} {front left right back : List Element} {value lhs rhs : Formula}

theorem not_applied_of_endsTerm (ends : EndsTerm back) : operatorAt back ≠ some .application := by
  rcases ends with rfl | ⟨operator, found, ends⟩
  · exact nofun
  · rintro applied
    cases found.symm.trans applied
    cases ends

theorem endsTerm_of_endsSum (ends : EndsSum back) : EndsTerm back := by
  rcases ends with none | comma | ⟨bracket, closes⟩
  · exact .inl none
  · exact .inr ⟨_, comma, rfl⟩
  · exact .inr ⟨_, closes, rfl⟩

/-- The loop of a term stops where the term ends. -/
theorem reads_no_factor (ends : EndsTerm back) (run : List Formula) (limit : Nat) :
    Reads (Grammar.termTail factor run limit) [] (Formula.product run) back := by
  rcases ends with rfl | ⟨operator, found, ends⟩
  · exact fun _ _ => termTail_exhausted rfl
  · exact fun _ _ => termTail_ends found ends

/-- The loop of a sum stops where the sum ends. -/
theorem reads_no_term (ends : EndsSum back) (sum : Formula) (limit : Nat) :
    Reads (Grammar.sumTail factor sum limit) [] sum back := by
  intro taken owner
  refine sumTail_ends ?_ ?_
  all_goals
    change operatorAt back ≠ _
    rcases ends with rfl | comma | ⟨bracket, closes⟩
    · exact nofun
    · rw [comma]
      exact nofun
    · rw [closes]
      exact nofun

theorem product_single (value : Formula) : Formula.product [value] = value := by
  cases value <;> rfl

theorem length_signed (left right : List Element) (sign : Element) :
    (left ++ sign :: right).length = left.length + 1 + right.length := by
  simp only [List.length_append, List.length_cons]
  omega

theorem opensTerm_of_factor (read : ReadsFactor factor front value) : OpensTerm factor front value := by
  intro back taken owner result plain done
  rw [Grammar.termWith, bind_of_ok (read back plain taken owner), get_bind]
  exact done _ (Nat.le_refl _)

/-- A term grows by a factor behind a sign. -/
theorem opensTerm_signed (op : BinaryOp) (multiplies : op = .mul ∨ op = .div)
    (spells : sign.operator? = some (binarySign op)) (opens : OpensTerm factor left lhs)
    (read : ReadsFactor factor right rhs) :
    OpensTerm factor (left ++ sign :: right) (.binary op lhs rhs) := by
  intro back taken owner result plain done
  rw [List.append_assoc]
  -- The loop stands at the sign with the left operand gathered, and goes round once.
  refine opens (sign :: right ++ back) taken owner result ?_ fun limit enough => ?_
  · rw [show operatorAt (sign :: right ++ back) = some (binarySign op) from spells]
    rcases multiplies with rfl | rfl <;> exact nofun
  · cases limit with
    | zero => cases enough
    | succ limit =>
      have found : Row.operator? ⟨taken + left.length, sign :: right ++ back, owner⟩ = some (binarySign op) :=
        spells
      rw [termTail_signed op multiplies found, List.cons_append, bind_of_ok (take_of_sign spells),
        bind_of_ok (read back plain _ _), product_single]
      simp only [List.length_append, List.length_cons] at enough
      have more := done limit (by omega)
      rw [length_signed, ← Nat.add_assoc, ← Nat.add_assoc] at more
      exact more

private theorem reads_term (opens : OpensTerm factor front value) (ends : EndsTerm back) :
    Reads (Grammar.termWith factor) front value back := by
  intro taken owner
  refine opens back taken owner _ (not_applied_of_endsTerm ends) fun limit enough => ?_
  have stops : Reads (Grammar.termTail factor [value] limit) [] _ back := reads_no_factor ends [value] limit
  rw [product_single] at stops
  exact stops (taken + front.length) owner

theorem opensSum_of_term (opens : OpensTerm factor front value) : OpensSum factor front value := by
  intro back taken owner result ends done
  rw [Grammar.expressionWith, Grammar.sumWith, bind_of_ok (reads_term opens ends taken owner), get_bind]
  exact done _ (Nat.le_refl _)

/-- A sum grows by a term behind a sign. -/
theorem opensSum_signed (op : BinaryOp) (adds : op = .add ∨ op = .sub)
    (spells : sign.operator? = some (binarySign op)) (opens : OpensSum factor left lhs)
    (term : OpensTerm factor right rhs) :
    OpensSum factor (left ++ sign :: right) (.binary op lhs rhs) := by
  intro back taken owner result ends done
  rw [List.append_assoc]
  refine opens (sign :: right ++ back) taken owner result ?_ fun limit enough => ?_
  · refine .inr ⟨binarySign op, spells, ?_⟩
    rcases adds with rfl | rfl <;> rfl
  · cases limit with
    | zero => cases enough
    | succ limit =>
      have found : Row.operator? ⟨taken + left.length, sign :: right ++ back, owner⟩ = some (binarySign op) :=
        spells
      rw [sumTail_next op adds found, List.cons_append, bind_of_ok (take_of_sign spells),
        bind_of_ok (reads_term term ends _ _)]
      simp only [List.length_append, List.length_cons] at enough
      have more := done limit (by omega)
      rw [length_signed, ← Nat.add_assoc, ← Nat.add_assoc] at more
      exact more

theorem reads_expression (opens : OpensSum factor front value) (ends : EndsSum back) :
    Reads (Grammar.expressionWith factor) front value back := by
  intro taken owner
  refine opens back taken owner _ (endsTerm_of_endsSum ends) fun limit enough => ?_
  exact reads_no_term ends value limit (taken + front.length) owner

end Formulas

/-! ## Lists -/

/-- Values that are spelled one after the other, with commas between them. -/
inductive Commas {α : Type} (spells : α → List Element → Prop) : List α → List Element → Prop where
  | last {value row} (spelled : spells value row) : Commas spells [value] row
  | next {value row comma values rows} (spelled : spells value row) (separates : comma.operator? = some .comma)
      (rest : Commas spells values rows) : Commas spells (value :: values) (row ++ comma :: rows)

/-- No values, or values with commas between them. -/
inductive Listed {α : Type} (spells : α → List Element → Prop) : List α → List Element → Prop where
  | none : Listed spells [] []
  | items {values rows} (separated : Commas spells values rows) : Listed spells values rows

/-- An item is read up to a comma or a closing bracket. -/
def ReadsItem {α : Type} (item : Rule α) (value : α) (row : List Element) : Prop :=
  ∀ back, EndsSum back → Reads item row value back

section Lists

variable {α : Type} {item : Rule α} {values : List α} {rows back : List Element}

private theorem commas_length {spells : α → List Element → Prop} (separated : Commas spells values rows) :
    values.length ≤ rows.length + 1 := by
  induction separated with
  | last spelled => exact Nat.le_add_left _ _
  | next spelled separates rest ih =>
    simp only [List.length_cons, List.length_append]
    omega

private theorem reads_bracketedItems (separated : Commas (ReadsItem item) values rows)
    (closes : closing.operator? = some (.closing bracket)) (enough : values.length ≤ limit) :
    Reads (bracketedItems bracket item limit) (rows ++ [closing]) values back := by
  induction separated generalizing limit with
  | @last value row read =>
    cases limit with
    | zero => cases enough
    | succ limit =>
      have found : operatorAt ([closing] ++ back) = some (.closing bracket) := closes
      refine reads_bind (read _ (.inr (.inr ⟨bracket, found⟩))) (reads_operator found ?_)
      rw [if_neg nofun]
      exact reads_map (reads_close closes)
  | @next value row comma values rows read separates rest ih =>
    cases limit with
    | zero => cases enough
    | succ limit =>
      have found : operatorAt (comma :: rows ++ [closing] ++ back) = some .comma := separates
      rw [List.append_assoc]
      refine reads_bind (read _ (.inr (.inl found))) (reads_operator found ?_)
      rw [if_pos rfl]
      exact reads_behind_sign separates (reads_map (ih (Nat.le_of_succ_le_succ enough)))

/-- A list in brackets whose first item does not begin with the closing bracket. -/
theorem reads_bracketed (opens : opening.operator? = some (.opening bracket))
    (closes : closing.operator? = some (.closing bracket)) (listed : Listed (ReadsItem item) values rows)
    (starts : values ≠ [] → operatorAt (rows ++ [closing] ++ back) ≠ some (.closing bracket)) :
    Reads (bracketed bracket item) (opening :: (rows ++ [closing])) values back := by
  refine reads_behind_sign opens ?_
  cases listed with
  | none =>
    have found : operatorAt ([closing] ++ back) = some (.closing bracket) := closes
    refine reads_operator found ?_
    rw [if_pos rfl]
    exact reads_map (reads_sign closes)
  | items separated =>
    have several : values ≠ [] := by
      rintro rfl
      cases separated
    refine reads_operator rfl ?_
    intro taken owner
    rw [if_neg (starts several), get_bind]
    refine reads_bracketedItems separated closes ?_ taken owner
    have := commas_length separated
    simp only [Row.remaining, List.length_append]
    omega

theorem reads_list (opens : opening.operator? = some (.opening bracket))
    (read : Reads (bracketed bracket item) (opening :: rows) values []) :
    Reads (Rule.list item) (opening :: rows) values [] := by
  intro taken owner
  have found : Row.operator? ⟨taken, opening :: rows ++ [], owner⟩ = some (.opening bracket) := opens
  rw [Rule.list, found]
  dsimp only
  rw [read taken owner]
  rfl

theorem core_of_row {element : Element} (tag : element.name = "mrow")
    (several : element.children = first :: second :: rest) :
    element.core owner = ⟨Row.ofChildren element, false⟩ := by
  obtain ⟨name, value, line, children⟩ := element
  cases tag
  cases several
  rfl

/-- A row with a list in brackets is read as that list. -/
theorem reads_listElement (tag : group.name = "mrow") (inside : group.children = opening :: (rows ++ [closing]))
    (opens : opening.operator? = some (.opening bracket))
    (read : Reads (bracketed bracket item) (opening :: (rows ++ [closing])) values []) :
    Reads (listElement item) [group] values back := by
  intro taken owner
  obtain ⟨second, rest, behind⟩ : ∃ second rest, rows ++ [closing] = second :: rest :=
    List.exists_cons_of_ne_nil (List.append_ne_nil_of_right_ne_nil rows (List.cons_ne_nil closing []))
  have core : group.core group.line = ⟨Row.ofChildren group, false⟩ :=
    core_of_row tag (inside.trans (by rw [behind]))
  have filled : (Row.ofChildren group).rest = opening :: (rows ++ [closing]) := inside
  change within (group.core group.line).row _ _ = _
  rw [core]
  exact reads_within (filled ▸ reads_list opens read) (taken + 1) owner

end Lists

/-! ## Factors -/

section Factors

variable {factor : Rule Formula} {element sign : Element} {front back : List Element} {value : Formula}

theorem readsFactor_number (tag : element.name = "mn") (spells : Number.ofText? element.value = some number) :
    ReadsFactor (Grammar.factorWith factor) [element] (.number number) := by
  obtain ⟨name, text, line, children⟩ := element
  cases tag
  intro back plain
  have filled : text.isEmpty = false := by
    rw [Bool.eq_false_iff]
    intro empty
    rw [String.isEmpty_iff.mp empty] at spells
    cases spells
  have read : Reads Grammar.number [⟨"mn", text, line, children⟩] (.number number) back := by
    have taken : Reads (take "mn") [⟨"mn", text, line, children⟩] ⟨"mn", text, line, children⟩ ([] ++ back) :=
      reads_take rfl
    refine reads_bind taken ?_
    dsimp only
    rw [if_neg (by rw [filled]; decide), spells]
    exact reads_pure _
  exact read

theorem reads_identifier (tag : element.name = "mi" ∨ element.name = "mtext")
    (named : element.value.isEmpty = false) : Reads Grammar.identifier [element] element.value back := by
  intro taken owner
  rw [Grammar.identifier, get_bind]
  dsimp only [List.singleton_append]
  rw [if_pos tag]
  change (if element.value.isEmpty then _ else _ : Rule String) _ = _
  rw [if_neg (by rw [named]; decide)]
  rfl

theorem readsFactor_identifier (tag : element.name = "mi") (named : element.value.isEmpty = false) :
    ReadsFactor (Grammar.factorWith factor) [element] (.identifier element.value) := by
  intro back plain
  have read : Reads (Grammar.namedWith factor element) [element] (.identifier element.value) back := by
    refine reads_bind (reads_identifier (.inl tag) named) (reads_operator rfl ?_)
    rw [List.nil_append, if_neg plain]
    exact reads_pure _
  obtain ⟨name, text, line, children⟩ := element
  cases tag
  exact read

/-- The arguments of a call in a row of their own. -/
theorem reads_arguments {expression : Rule Formula} {rows : List Element} (tag : group.name = "mrow")
    (inside : group.children = opening :: (rows ++ [closing]))
    (opens : opening.operator? = some (.opening bracket))
    (read : Reads (bracketed bracket expression) (opening :: (rows ++ [closing])) arguments []) :
    Reads (Grammar.argumentsWith expression) [group] arguments back := by
  have found : operatorAt ([group] ++ back) = none := by
    change group.operator? = none
    rw [Element.operator?, tag]
    rfl
  exact reads_operator found (reads_listElement tag inside opens read)

theorem readsFactor_call (tag : element.name = "mi") (named : element.value.isEmpty = false)
    (applies : sign.operator? = some .application)
    (fits : ∀ expected, Builtin.arityOf? element.value = some expected → arguments.length = expected)
    (read : ∀ back, Reads (Grammar.argumentsWith (Grammar.expressionWith factor)) front arguments back) :
    ReadsFactor (Grammar.factorWith factor) (element :: sign :: front) (.call element.value arguments) := by
  intro back plain
  have invoked : Grammar.invocation element.value arguments element.line =
      .ok (.call element.value arguments) := by
    unfold Grammar.invocation
    split
    · rename_i known
      rw [if_pos (fits _ known)]
    · rfl
  have call : Reads (Grammar.namedWith factor element) ([element] ++ sign :: front)
      (.call element.value arguments) back := by
    refine reads_bind (reads_identifier (.inl tag) named) (reads_operator applies ?_)
    rw [if_pos rfl]
    refine reads_behind_sign applies ?_
    intro taken owner
    rw [bind_of_ok (read back taken owner), invoked]
    rfl
  obtain ⟨name, text, line, children⟩ := element
  cases tag
  exact call

theorem readsFactor_signed (op : UnaryOp) (spells : sign.operator? = some (unarySign op))
    (read : ReadsFactor factor front value) :
    ReadsFactor (Grammar.factorWith factor) (sign :: front) (.unary op value) := by
  intro back plain
  have tag := name_of_operator? spells
  have signed : Reads (Grammar.signedWith factor sign) (sign :: front) (.unary op value) back := by
    rw [Grammar.signedWith, spells]
    cases op with
    | plus => exact reads_behind_sign spells (reads_map (read back plain))
    | minus => exact reads_behind_sign spells (reads_map (read back plain))
  obtain ⟨name, text, line, children⟩ := sign
  cases tag
  exact signed

/-- A stretch in brackets is one factor. -/
theorem readsFactor_enclosed (opens : opening.operator? = some (.opening bracket))
    (closes : closing.operator? = some (.closing bracket)) (read : OpensSum factor front value) :
    ReadsFactor (Grammar.factorWith factor) (opening :: (front ++ [closing])) value := by
  intro back plain
  have tag := name_of_operator? opens
  have found : operatorAt ([closing] ++ back) = some (.closing bracket) := closes
  have enclosed : Reads (Grammar.signedWith factor opening) (opening :: (front ++ [closing])) value back := by
    rw [Grammar.signedWith, opens]
    refine reads_behind_sign opens (reads_bind (reads_expression read (.inr (.inr ⟨bracket, found⟩))) ?_)
    exact reads_map (reads_close closes)
  obtain ⟨name, text, line, children⟩ := opening
  cases tag
  exact enclosed

/-- A row is one factor if its inside is an expression. -/
theorem readsFactor_group (tag : element.name = "mrow") (filled : element.children ≠ [])
    (read : OpensSum factor element.children value) :
    ReadsFactor (Grammar.factorWith factor) [element] value := by
  intro back plain
  have group : Reads (Grammar.groupWith factor element) [element] value back := by
    refine reads_bind reads_advance ?_
    rw [if_neg (by simpa using filled)]
    exact reads_within (reads_whole (reads_expression read (.inl rfl)))
  obtain ⟨name, text, line, children⟩ := element
  cases tag
  exact group

private theorem reads_operandWith {expression : Rule Formula} (filled : value.isEmpty = false)
    (read : Reads expression [element] value []) :
    Reads (Grammar.operandWith expression construct) [element] value back := by
  intro taken owner
  rw [Grammar.operandWith, get_bind]
  have window : takeWindow ⟨taken, [element] ++ back, owner⟩ =
      .ok (Row.ofElement element) ⟨taken + 1, back, owner⟩ := rfl
  have inside : within (Row.ofElement element) (whole expression) ⟨taken + 1, back, owner⟩ =
      .ok value ⟨taken + 1, back, owner⟩ := reads_within (reads_whole read) (taken + 1) owner
  rw [bind_of_ok window, bind_of_ok inside, if_neg (by rw [filled]; decide)]
  rfl

theorem readsFactor_power (tag : element.name = "msup") (children : element.children = [base, exponent])
    (filled : first.isEmpty = false ∧ second.isEmpty = false) (readBase : OpensSum factor [base] first)
    (readExponent : OpensSum factor [exponent] second) :
    ReadsFactor (Grammar.factorWith factor) [element] (.call "pow" [first, second]) := by
  intro back plain
  have pair : Reads (Grammar.pairWith (Grammar.expressionWith factor) element) [element] (first, second)
      back := by
    refine reads_bind reads_advance ?_
    rw [if_pos (by rw [children]; rfl)]
    refine reads_within ?_
    rw [show (Row.ofChildren element).rest = [base] ++ [exponent] from children]
    refine reads_bind (reads_operandWith filled.1 (reads_expression readBase (.inl rfl))) ?_
    exact reads_map (reads_operandWith filled.2 (reads_expression readExponent (.inl rfl)))
  have power := reads_map (f := fun pair : Formula × Formula => Formula.call "pow" [pair.1, pair.2]) pair
  obtain ⟨name, text, line, children⟩ := element
  cases tag
  exact power

end Factors

end FormulaSheet.RowCompletion
