import FormulaSheet.Proofs.NestingDepth
import FormulaSheet.Proofs.RenderedFormulas

/-! A rule does not look further than it has to. A rule that succeeds takes a stretch from the front of its row, and
it takes the same stretch, with the same value, from every row that begins with the stretch and goes on in a way
that lets the rule stop there: a factor must not be applied, a term must end, a sum must end.

The conditions are chained from the back of a row. Each rule promises something of the rows from which it takes its
stretch, and that is what the rule in front of it needs. -/
namespace FormulaSheet.ReadingLocality
open Markup (Element)
open Rule FormulaReading RowCompletion Sequencing

variable {α β : Type} {row : Row}

/-- If the rule succeeds on the row, it takes a stretch of it that it also takes in front of everything `free`; the
rows that then begin with the stretch are such as `starts` says. -/
def LocalAt (starts free : List Element → Prop) (rule : Rule α) (row : Row) : Prop :=
  ∀ value left, rule row = .ok value left → ∃ front, row.rest = front ++ left.rest ∧
    ∀ back, free back → starts (front ++ back) ∧ Reads rule front value back

/-- Elements that begin as a row does. -/
def Alike (row : Row) (elements : List Element) : Prop := elements.head? = row.rest.head?

/-- What follows may be anything. -/
def Anything (_ : List Element) : Prop := True

/-- A name in front is not applied. -/
def Unapplied (elements : List Element) : Prop := operatorAt elements ≠ some .application

/-! ## Steps -/

section Steps

variable {starts middle free : List Element → Prop} {rule : Rule α}

private theorem localAt_fault (fault : Fault) : LocalAt starts free (throw fault : Rule α) row := nofun

private theorem localAt_pure (value : α) : LocalAt free free (pure value) row := by
  rintro value left ⟨⟩
  exact ⟨[], rfl, fun back stops => ⟨stops, reads_pure value⟩⟩

private theorem localAt_mono {starts' free' : List Element → Prop} (found : LocalAt starts free rule row)
    (begins : ∀ elements, starts elements → starts' elements) (stops : ∀ elements, free' elements → free elements) :
    LocalAt starts' free' rule row := by
  intro value left ran
  obtain ⟨front, split, reads⟩ := found value left ran
  exact ⟨front, split, fun back allowed => (reads back (stops back allowed)).imp_left (begins _)⟩

private theorem localAt_bind {next : α → Rule β} (first : LocalAt starts middle rule row)
    (second : ∀ value left, rule row = .ok value left → LocalAt middle free (next value) left) :
    LocalAt starts free (rule >>= next) row := by
  intro value left ran
  obtain ⟨initial, between, ranFirst, ranSecond⟩ := bind_ok ran
  obtain ⟨front, split, reads⟩ := first initial between ranFirst
  obtain ⟨front', split', reads'⟩ := second initial between ranFirst value left ranSecond
  refine ⟨front ++ front', by rw [split, split', List.append_assoc], fun back stops => ?_⟩
  obtain ⟨begins, readSecond⟩ := reads' back stops
  obtain ⟨begins', readFirst⟩ := reads (front' ++ back) begins
  exact ⟨by rwa [List.append_assoc], reads_bind readFirst readSecond⟩

/-- Behind a rule that stops by itself, a rule may start anywhere. -/
theorem localAt_any (found : LocalAt starts free rule row) : LocalAt Anything free rule row :=
  localAt_mono found (fun _ _ => trivial) fun _ => id

private theorem localAt_map {f : α → β} (found : LocalAt starts free rule row) :
    LocalAt starts free (rule >>= fun value => pure (f value)) row :=
  localAt_bind found fun _ _ _ => localAt_pure _

private theorem operatorAt_of_alike {elements : List Element} (alike : Alike row elements) :
    operatorAt elements = row.operator? := by
  rw [operatorAt, alike]
  rfl

private theorem localAt_operator {next : Option Operator → Rule β}
    (found : LocalAt (Alike row) free (next row.operator?) row) :
    LocalAt (Alike row) free (Rule.operator? >>= next) row := by
  intro value left ran
  obtain ⟨front, split, reads⟩ := found value left ran
  refine ⟨front, split, fun back stops => ?_⟩
  obtain ⟨begins, read⟩ := reads back stops
  exact ⟨begins, reads_operator (operatorAt_of_alike begins) read⟩

/-- A rule that first looks at the next element. -/
theorem localAt_get {next : Row → Rule α} (looks : ∀ other : Row, Alike row other.rest → next other = next row)
    (found : LocalAt (Alike row) free (next row) row) : LocalAt (Alike row) free (get >>= next) row := by
  intro value left ran
  obtain ⟨front, split, reads⟩ := found value left ran
  refine ⟨front, split, fun back stops => ?_⟩
  obtain ⟨begins, read⟩ := reads back stops
  refine ⟨begins, fun taken owner => ?_⟩
  rw [get_bind, looks _ begins]
  exact read taken owner

private theorem localAt_take (tag : String) : LocalAt (Alike row) Anything (take tag) row := by
  intro element left ran
  obtain ⟨shape, named⟩ := take_ok ran
  refine ⟨[element], shape, fun back _ => ⟨?_, reads_take named⟩⟩
  rw [Alike, shape]
  rfl

private theorem localAt_advance (shape : row.rest = element :: rest) :
    LocalAt (Alike row) Anything (modify Row.advance) row := by
  rintro value left ⟨⟩
  refine ⟨[element], by rw [shape]; simp [Row.advance, shape], fun back _ => ⟨?_, reads_advance⟩⟩
  rw [Alike, shape]
  rfl

private theorem localAt_within (inner : Row) : LocalAt free free (within inner rule) row := by
  intro value left ran
  obtain ⟨⟨rest, read⟩, rfl⟩ := within_ok ran
  refine ⟨[], rfl, fun back stops => ⟨stops, fun taken owner => ?_⟩⟩
  rw [within, read]
  rfl

private theorem endsSum_of_closing (closes : closing.operator? = some (.closing bracket)) (back : List Element) :
    EndsSum (closing :: back) :=
  .inr (.inr ⟨bracket, closes⟩)

private theorem localAt_close (bracket : Bracket) : LocalAt EndsSum Anything (close bracket) row := by
  intro value left ran
  obtain ⟨closing, shape, closes⟩ := close_ok ran
  exact ⟨[closing], shape, fun back _ => ⟨endsSum_of_closing closes back, reads_close closes⟩⟩

end Steps

/-! ## Lists -/

section Lists

variable {item : Rule α}

/-- The loop can take fewer or more rounds than the row asks for, as long as it takes enough. -/
theorem bracketedItems_local (items : ∀ row, LocalAt Unapplied EndsSum item row)
    (ran : bracketedItems bracket item limit row = .ok values left) :
    ∃ front, row.rest = front ++ left.rest ∧ front ≠ [] ∧ ∀ back limit, front.length ≤ limit →
      Reads (bracketedItems bracket item limit) front values back := by
  induction limit generalizing row values with
  | zero => cases ran
  | succ limit ih =>
    obtain ⟨first, middle, ranFirst, more⟩ := bind_ok ran
    obtain ⟨front, split, reads⟩ := items row first middle ranFirst
    rw [operator?_bind] at more
    split at more
    · rename_i separates
      obtain ⟨comma, behind, taken, more⟩ := bind_ok more
      obtain ⟨others, last, ranOthers, more⟩ := bind_ok more
      cases more
      obtain ⟨shape, spells⟩ := take_sign separates taken
      obtain ⟨front', split', -, reads'⟩ := ih ranOthers
      refine ⟨front ++ comma :: front', by simp [split, shape, split'], by simp, fun back limit enough => ?_⟩
      rw [length_signed] at enough
      cases limit with
      | zero => omega
      | succ limit =>
        refine reads_bind (reads (comma :: front' ++ back) (.inr (.inl spells))).2 (reads_operator spells ?_)
        rw [if_pos rfl]
        exact reads_behind_sign spells (reads_map (reads' back limit (by omega)))
    · obtain ⟨done, last, closed, more⟩ := bind_ok more
      cases more
      obtain ⟨closing, shape, closes⟩ := close_ok closed
      refine ⟨front ++ [closing], by simp [split, shape], by simp, fun back limit enough => ?_⟩
      rw [length_signed] at enough
      cases limit with
      | zero => omega
      | succ limit =>
        refine reads_bind (reads _ (endsSum_of_closing closes back)).2 (reads_operator closes ?_)
        rw [if_neg nofun]
        exact reads_map (reads_close closes)

private theorem alike_of_stretch {left : Row} (split : row.rest = front ++ left.rest) (filled : front ≠ [])
    (back : List Element) : Alike row (front ++ back) := by
  obtain ⟨first, others, rfl⟩ := List.exists_cons_of_ne_nil filled
  rw [Alike, split]
  rfl

private theorem localAt_bracketed (items : ∀ row, LocalAt Unapplied EndsSum item row) (bracket : Bracket) :
    LocalAt (Alike row) Anything (bracketed bracket item) row := by
  refine localAt_bind (localAt_take "mo") fun opening behind _ => localAt_any (localAt_operator ?_)
  split
  · exact localAt_map (localAt_take "mo")
  · intro values left ran
    rw [get_bind] at ran
    obtain ⟨front, split, filled, reads⟩ := bracketedItems_local items ran
    refine ⟨front, split, fun back _ => ⟨alike_of_stretch split filled back, fun taken owner => ?_⟩⟩
    rw [get_bind]
    refine reads back _ ?_ taken owner
    simp only [Row.remaining, List.length_append]
    omega

private theorem localAt_listElement : LocalAt (Alike row) Anything (listElement item) row := by
  intro values left ran
  unfold listElement at ran
  split at ran
  · cases ran
  · rename_i element rest shape
    obtain ⟨⟨last, read⟩, rfl⟩ := within_ok ran
    have split : row.rest = [element] ++ row.advance.rest := by simp [Row.advance, shape]
    refine ⟨[element], split, fun back _ => ⟨alike_of_stretch split (by simp) back, fun taken owner => ?_⟩⟩
    change within (element.core element.line).row _ _ = _
    rw [within, read]
    rfl

end Lists

/-! ## Terms and sums -/

section Formulas

variable {factor : Rule Formula} {row left : Row} {value : Formula}

/-- A stretch from which something has been taken begins as its row. -/
theorem filled_of_advances {rule : Rule α} {value : α} (advances : Advances (Gives rule))
    (ran : rule row = .ok value left) (split : row.rest = front ++ left.rest) : front ≠ [] := by
  rintro rfl
  have shorter := advances (gives_of_ok ran)
  rw [split] at shorter
  exact absurd shorter (Nat.lt_irrefl _)

theorem unapplied_of_sign (spells : sign.operator? = some operator) (other : operator ≠ .application)
    (back : List Element) : Unapplied (sign :: back) := by
  intro applied
  exact other (Option.some.inj (spells.symm.trans applied))

/-- The loop can take any number of rounds that is enough for the factors. -/
theorem termTail_local (factors : ∀ row, LocalAt Unapplied Unapplied factor row)
    (advances : Advances (Gives factor)) (enough : row.rest.length ≤ limit)
    (ran : Grammar.termTail factor run limit row = .ok value left) :
    ∃ front, row.rest = front ++ left.rest ∧ ∀ back, EndsTerm back → Unapplied (front ++ back) ∧
      ∀ limit, front.length ≤ limit → Reads (Grammar.termTail factor run limit) front value back := by
  induction limit generalizing run row with
  | zero =>
    cases ran
    exact ⟨[], rfl, fun back ends => ⟨not_applied_of_endsTerm ends, fun limit _ => reads_no_factor ends run limit⟩⟩
  | succ limit ih =>
    rcases termTail_cases ran with ⟨rfl, rfl⟩ |
      ⟨op, sign, behind, operand, middle, multiplies, shape, spells, ranFactor, more⟩ |
      ⟨operand, middle, unsigned, ranFactor, more⟩
    · exact ⟨[], rfl, fun back ends => ⟨not_applied_of_endsTerm ends, fun limit _ => reads_no_factor ends run limit⟩⟩
    · obtain ⟨front, split, reads⟩ := factors behind operand middle ranFactor
      have shorter := advances (gives_of_ok ranFactor)
      rw [shape, List.length_cons] at enough
      obtain ⟨front', split', reads'⟩ := ih (by omega) more
      refine ⟨sign :: (front ++ front'), by simp [shape, split, split'], fun back ends => ⟨?_, fun limit room => ?_⟩⟩
      · refine unapplied_of_sign spells ?_ _
        rcases multiplies with rfl | rfl <;> exact nofun
      · obtain ⟨begins, readTail⟩ := reads' back ends
        rw [List.length_cons, List.length_append] at room
        cases limit with
        | zero => omega
        | succ limit =>
          intro taken owner
          have found : Row.operator? ⟨taken, sign :: (front ++ front') ++ back, owner⟩ = some (binarySign op) :=
            spells
          rw [termTail_signed op multiplies found]
          exact reads_behind_sign spells
            (reads_bind (reads (front' ++ back) begins).2 (readTail limit (by omega))) taken owner
    · obtain ⟨front, split, reads⟩ := factors row operand middle ranFactor
      have shorter := advances (gives_of_ok ranFactor)
      have filled := filled_of_advances advances ranFactor split
      obtain ⟨front', split', reads'⟩ := ih (by omega) more
      refine ⟨front ++ front', by simp [split, split'], fun back ends => ?_⟩
      obtain ⟨begins, readTail⟩ := reads' back ends
      obtain ⟨begins', readFactor⟩ := reads (front' ++ back) begins
      refine ⟨by rwa [List.append_assoc], fun limit room => ?_⟩
      obtain ⟨first, others, rfl⟩ := List.exists_cons_of_ne_nil filled
      rw [List.cons_append, List.length_cons, List.length_append] at room
      cases limit with
      | zero => omega
      | succ limit =>
        intro taken owner
        rw [operator?_cons split] at unsigned
        have begun : Row.rest ⟨taken, first :: others ++ front' ++ back, owner⟩ = first :: _ := rfl
        rw [termTail_beside begun unsigned]
        exact reads_bind readFactor (readTail limit (by omega)) taken owner

private theorem localAt_termWith (factors : ∀ row, LocalAt Unapplied Unapplied factor row)
    (advances : Advances (Gives factor)) : LocalAt Unapplied EndsTerm (Grammar.termWith factor) row := by
  refine localAt_bind (factors row) fun first middle _ value left ran => ?_
  obtain ⟨front, split, reads⟩ := termTail_local factors advances (Nat.le_refl _) ran
  refine ⟨front, split, fun back ends => ⟨(reads back ends).1, fun taken owner => ?_⟩⟩
  exact (reads back ends).2 _ (by simp [Row.remaining]) taken owner

private theorem sumTail_local {term : Rule Formula} {sum : Formula} (terms : ∀ row, LocalAt Unapplied EndsTerm term row)
    (ran : Grammar.sumTail term sum limit row = .ok value left) :
    ∃ front, row.rest = front ++ left.rest ∧ ∀ back, EndsSum back → EndsTerm (front ++ back) ∧
      ∀ limit, front.length ≤ limit → Reads (Grammar.sumTail term sum limit) front value back := by
  induction limit generalizing sum row with
  | zero =>
    cases ran
    exact ⟨[], rfl, fun back ends => ⟨endsTerm_of_endsSum ends, fun limit _ => reads_no_term ends _ limit⟩⟩
  | succ limit ih =>
    rcases sumTail_cases ran with ⟨rfl, rfl⟩ |
      ⟨op, sign, behind, operand, middle, adds, shape, spells, ranTerm, more⟩
    · exact ⟨[], rfl, fun back ends => ⟨endsTerm_of_endsSum ends, fun limit _ => reads_no_term ends _ limit⟩⟩
    · obtain ⟨front, split, reads⟩ := terms behind operand middle ranTerm
      obtain ⟨front', split', reads'⟩ := ih more
      refine ⟨sign :: (front ++ front'), by simp [shape, split, split'], fun back ends => ⟨?_, fun limit room => ?_⟩⟩
      · refine .inr ⟨binarySign op, spells, ?_⟩
        rcases adds with rfl | rfl <;> rfl
      · obtain ⟨begins, readTail⟩ := reads' back ends
        rw [List.length_cons, List.length_append] at room
        cases limit with
        | zero => omega
        | succ limit =>
          intro taken owner
          have found : Row.operator? ⟨taken, sign :: (front ++ front') ++ back, owner⟩ = some (binarySign op) :=
            spells
          rw [sumTail_next op adds found]
          exact reads_behind_sign spells
            (reads_bind (reads (front' ++ back) begins).2 (readTail limit (by omega))) taken owner

private theorem localAt_expressionWith (factors : ∀ row, LocalAt Unapplied Unapplied factor row)
    (advances : Advances (Gives factor)) : LocalAt Unapplied EndsSum (Grammar.expressionWith factor) row := by
  refine localAt_bind (localAt_termWith factors advances) fun first middle _ value left ran => ?_
  obtain ⟨front, split, reads⟩ := sumTail_local (fun _ => localAt_termWith factors advances) ran
  refine ⟨front, split, fun back ends => ⟨(reads back ends).1, fun taken owner => ?_⟩⟩
  exact (reads back ends).2 _ (by simp [Row.remaining]) taken owner

end Formulas

/-! ## Factors -/

section Factors

variable {factor expression : Rule Formula} {row : Row}

private theorem localAt_number : LocalAt (Alike row) Anything Grammar.number row := by
  refine localAt_bind (localAt_take "mn") fun element left _ => ?_
  split
  · exact localAt_fault _
  · split
    · exact localAt_pure _
    · exact localAt_fault _

private theorem localAt_identifier : LocalAt (Alike row) Anything Grammar.identifier row := by
  intro name left ran
  obtain ⟨element, shape, tag, named, rfl⟩ := identifier_ok ran
  exact ⟨[element], shape, fun back _ => ⟨alike_of_stretch shape (by simp) back, reads_identifier tag named⟩⟩

private theorem localAt_argumentsWith (items : ∀ row, LocalAt Unapplied EndsSum expression row) :
    LocalAt (Alike row) Anything (Grammar.argumentsWith expression) row := by
  refine localAt_operator ?_
  split
  · exact localAt_bracketed items _
  · exact localAt_listElement

private theorem localAt_pairWith (shape : row.rest = element :: rest) :
    LocalAt (Alike row) Anything (Grammar.pairWith expression element) row := by
  refine localAt_bind (localAt_advance shape) fun _ left _ => ?_
  split
  · exact localAt_within _
  · exact localAt_fault _

private theorem localAt_groupWith (shape : row.rest = element :: rest) :
    LocalAt (Alike row) Anything (Grammar.groupWith factor element) row := by
  refine localAt_bind (localAt_advance shape) fun _ left _ => ?_
  split
  · exact localAt_pure _
  · exact localAt_within _

private theorem localAt_squareRootWith (shape : row.rest = element :: rest) :
    LocalAt (Alike row) Anything (Grammar.squareRootWith factor element) row := by
  refine localAt_bind (localAt_advance shape) fun _ left _ => ?_
  split
  · exact localAt_fault _
  · exact localAt_map (localAt_within _)

/-- A name can be told from a call by what follows it. -/
theorem localAt_namedWith (items : ∀ row, LocalAt Unapplied EndsSum (Grammar.expressionWith factor) row)
    (element : Element) : LocalAt (Alike row) Unapplied (Grammar.namedWith factor element) row := by
  refine localAt_bind localAt_identifier fun name middle _ => ?_
  by_cases applied : middle.operator? = some .application
  · refine localAt_any (localAt_operator ?_)
    rw [if_pos applied]
    refine localAt_bind (localAt_take "mo") fun sign behind _ => ?_
    refine localAt_any (localAt_bind (localAt_argumentsWith items) fun arguments last _ => ?_)
    split
    · exact localAt_any (localAt_pure _)
    · exact localAt_fault _
  · intro value left ran
    rw [operator?_bind, if_neg applied] at ran
    cases ran
    refine ⟨[], rfl, fun back plain => ⟨trivial, reads_operator rfl ?_⟩⟩
    rw [List.nil_append, if_neg plain]
    exact reads_pure _

private theorem localAt_signedWith (factors : ∀ row, LocalAt Unapplied Unapplied factor row)
    (advances : Advances (Gives factor)) (element : Element) :
    LocalAt (Alike row) Unapplied (Grammar.signedWith factor element) row := by
  unfold Grammar.signedWith
  split
  · exact localAt_bind (localAt_take "mo") fun _ left _ => localAt_any (localAt_map (factors left))
  · exact localAt_bind (localAt_take "mo") fun _ left _ => localAt_any (localAt_map (factors left))
  · refine localAt_bind (localAt_take "mo") fun _ left _ => ?_
    refine localAt_any (localAt_bind (localAt_expressionWith factors advances) fun value behind _ => ?_)
    exact localAt_bind (localAt_close _) fun _ _ _ => localAt_any (localAt_pure _)
  all_goals exact localAt_fault _

private theorem localAt_pair (shape : row.rest = element :: rest) (form : Formula × Formula → Formula) :
    LocalAt (Alike row) Unapplied
      (Grammar.pairWith (Grammar.expressionWith factor) element >>= fun pair => pure (form pair)) row :=
  localAt_mono (localAt_map (localAt_pairWith shape)) (fun _ => id) fun _ _ => trivial

/-- No factor begins with the sign of an application. -/
theorem unapplied_of_factorWith (ran : Grammar.factorWith factor row = .ok value left) :
    row.operator? ≠ some .application := by
  intro applied
  obtain ⟨element, rest, shape, spells⟩ := operator?_some applied
  have tag := name_of_operator? spells
  rw [Grammar.factorWith, get_bind, shape] at ran
  obtain ⟨name, text, line, children⟩ := element
  cases tag
  change Grammar.signedWith factor _ row = _ at ran
  rw [Grammar.signedWith, spells] at ran
  cases ran

private theorem localAt_factorWith (factors : ∀ row, LocalAt Unapplied Unapplied factor row)
    (advances : Advances (Gives factor)) : LocalAt Unapplied Unapplied (Grammar.factorWith factor) row := by
  have always {rule : Rule Formula} (found : LocalAt (Alike row) Anything rule row) :
      LocalAt (Alike row) Unapplied rule row :=
    localAt_mono found (fun _ => id) fun _ _ => trivial
  have alike : LocalAt (Alike row) Unapplied (Grammar.factorWith factor) row := by
    cases shape : row.rest with
    | nil =>
      intro value left ran
      rw [Grammar.factorWith, get_bind, shape] at ran
      cases ran
    | cons element rest =>
      refine localAt_get (fun other alike => ?_) ?_
      · rw [Alike, shape, List.head?_cons, List.head?_eq_some_iff] at alike
        obtain ⟨others, shape'⟩ := alike
        rw [shape, shape']
      rw [shape]
      dsimp only
      split
      · exact always localAt_number
      · exact localAt_namedWith (fun _ => localAt_expressionWith factors advances) element
      · exact localAt_namedWith (fun _ => localAt_expressionWith factors advances) element
      · exact always (localAt_groupWith shape)
      · exact always (localAt_groupWith shape)
      · exact localAt_signedWith factors advances element
      · exact localAt_pair shape _
      · exact localAt_pair shape _
      · exact localAt_pair shape _
      · exact always (localAt_squareRootWith shape)
      · split
        · exact localAt_fault _
        · exact localAt_fault _
  intro value left ran
  obtain ⟨front, split, reads⟩ := alike value left ran
  refine ⟨front, split, fun back plain => ?_⟩
  obtain ⟨begins, read⟩ := reads back plain
  refine ⟨?_, read⟩
  rw [Unapplied, operatorAt_of_alike begins]
  exact unapplied_of_factorWith ran

private theorem localAt_factorAt (depth : Nat) (row : Row) : LocalAt Unapplied Unapplied
    (Grammar.factorAt depth) row := by
  induction depth generalizing row with
  | zero => exact localAt_fault _
  | succ depth ih => exact localAt_factorWith ih (factorAt_advances depth)

end Factors

/-! ## At any place -/

/-- Elements that are read as a factor in one place are read as the same factor wherever they are not applied. -/
theorem readsFactor_of_factor {row left : Row} (ran : Grammar.factor row = .ok value left)
    (split : row.rest = front ++ left.rest) (enough : Element.listWeight front < depth) :
    ReadsFactor (Grammar.factorAt depth) front value := by
  -- At a depth that is enough for the whole row, the stretch is a factor by itself.
  obtain ⟨found, same, reads⟩ := localAt_factorAt (row.weight + 1) row value left ran
  obtain rfl : front = found := List.append_cancel_right (split.symm.trans same)
  have alone := (reads [] nofun).2 0 none
  rw [List.append_nil] at alone
  -- By itself it asks for less depth, and from there it is a factor in front of anything.
  have light : Row.weight ⟨0, front, none⟩ < row.weight + 1 := by
    have whole : row.weight = Element.listWeight front + Element.listWeight left.rest := by
      rw [Row.weight, split, RenderedFormulas.listWeight_append]
    change Element.listWeight front < _
    omega
  have deep : Row.weight ⟨0, front, none⟩ < depth := enough
  rw [← NestingDepth.factor_eq light, NestingDepth.factor_eq deep] at alone
  obtain ⟨again, same', readsDeep⟩ := localAt_factorAt depth _ _ _ alone
  obtain rfl : front = again := by simpa using same'
  exact fun back plain => (readsDeep back plain).2

end FormulaSheet.ReadingLocality
