import FormulaSheet.Proofs.ReadingLocality

/-! A term is the left fold of its factors. The rule for a term gathers factors that stand side by side and turns them
into a product at the next sign, without the empty ones; the result is that of one running formula, which each factor
extends as its joint says. Since factors are read alike wherever they stand, a sign of multiplication can also be
written where there was none. -/
namespace FormulaSheet.TermFold
open Markup (Element)
open FormulaReading RowCompletion ReadingLocality RenderedFormulas

/-- What joins a factor to those in front of it: a sign, or nothing. -/
inductive Joint where
  | sign (op : BinaryOp) (multiplies : op = .mul ∨ op = .div) (element : Element)
      (spells : element.operator? = some (binarySign op))
  | beside

namespace Joint

def elements : Joint → List Element
  | .sign _ _ element _ => [element]
  | .beside => []

/-- The formula so far, extended by a factor. -/
def extend (joint : Joint) (formula factor : Formula) : Formula :=
  match joint with
  | .sign op _ _ _ => .binary op formula factor
  | .beside =>
    if factor.isEmpty then formula
    else if formula.isEmpty then factor
    else .binary .mul formula factor

end Joint

/-- The group begins with an element that is no operator, or with an opening bracket. -/
def Opens (group : List Element) : Prop :=
  ∃ first rest, group = first :: rest ∧
    (first.name ≠ "mo" ∨ ∃ bracket, first.operator? = some (.opening bracket))

/-- A factor behind the first one of a term: its joint, its elements and its formula. -/
structure Part where
  joint : Joint
  group : List Element
  node : Formula
  opens : joint = .beside → Opens group

namespace Part

def elements (part : Part) : List Element := part.joint.elements ++ part.group

/-- The part behind a sign of multiplication. -/
def multiplied (part : Part) (sign : Element) (spells : sign.operator? = some .times) : Part :=
  { part with joint := .sign .mul (.inl rfl) sign spells, opens := nofun }

/-- The group is read as the formula of the part in every place where it is not applied. -/
def Recognised (part : Part) : Prop :=
  ∀ depth, Element.listWeight part.group < depth →
    ReadsFactor (Grammar.factorAt depth) part.group part.node

end Part

def spelled (parts : List Part) : List Element := parts.flatMap Part.elements

/-- The first factor, extended by the parts from left to right. -/
def folded (first : Formula) (parts : List Part) : Formula :=
  parts.foldl (fun formula part => part.joint.extend formula part.node) first

/-- Started at each group in the row, the rule for a factor reads exactly that group. -/
def ReadInPlace (back : List Element) (owner : Option Nat) : Nat → List Part → Prop
  | _, [] => True
  | taken, part :: parts =>
    let start := taken + part.joint.elements.length
    Grammar.factor ⟨start, part.group ++ (spelled parts ++ back), owner⟩ =
        .ok part.node ⟨start + part.group.length, spelled parts ++ back, owner⟩ ∧
      ReadInPlace back owner (start + part.group.length) parts

/-- The same parts, with signs of multiplication written at some places where a factor that is not empty stands beside
a formula that is not. -/
inductive TimesWritten : Formula → List Part → List Part → Prop where
  | none : TimesWritten formula [] []
  | kept (rest : TimesWritten (part.joint.extend formula part.node) parts parts') :
      TimesWritten formula (part :: parts) (part :: parts')
  | written (beside : part.joint = .beside) (filled : formula.isEmpty = false) (filledPart : part.node.isEmpty = false)
      (spells : sign.operator? = some .times) (rest : TimesWritten (.binary .mul formula part.node) parts parts') :
      TimesWritten formula (part :: parts) (part.multiplied sign spells :: parts')

/-! ## Products as folds -/

private theorem product_isEmpty {run : List Formula} :
    (Formula.product run).isEmpty = true ↔ run.filter (!·.isEmpty) = [] := by
  have folds (rest : List Formula) (first : Formula) (filled : first.isEmpty = false) :
      (rest.foldl (.binary .mul) first).isEmpty = false := by
    induction rest generalizing first with
    | nil => exact filled
    | cons next rest ih => exact ih _ rfl
  unfold Formula.product
  split
  · rename_i none
    exact iff_of_true rfl none
  · rename_i first rest some
    have member : first ∈ run.filter (!·.isEmpty) := some ▸ List.mem_cons_self
    have filled : first.isEmpty = false := by simpa using (List.mem_filter.mp member).2
    simp [folds rest first filled, some]

/-- The product of gathered factors grows as a running formula does. -/
theorem product_append (run : List Formula) (factor : Formula) :
    Formula.product (run ++ [factor]) = Joint.beside.extend (Formula.product run) factor := by
  unfold Joint.extend
  dsimp only
  split
  · rename_i empty
    simp [Formula.product, empty]
  · rename_i filled
    split
    · rename_i none
      simp [Formula.product, product_isEmpty.mp none, filled]
    · rename_i some
      rw [product_isEmpty] at some
      obtain ⟨first, rest, shape⟩ := List.exists_cons_of_ne_nil some
      simp [Formula.product, shape, filled]

/-! ## The loop of a term -/

section Loop

variable {factor : Rule Formula} {parts : List Part} {back : List Element}

private theorem unapplied_spelled (ends : EndsTerm back) (parts : List Part) : Unapplied (spelled parts ++ back) := by
  cases parts with
  | nil => exact not_applied_of_endsTerm ends
  | cons part parts =>
    obtain ⟨joint, group, node, opens⟩ := part
    cases joint with
    | sign op multiplies element spells =>
      refine unapplied_of_sign spells ?_ _
      rcases multiplies with rfl | rfl <;> exact nofun
    | beside =>
      obtain ⟨first, rest, rfl, starts⟩ := opens rfl
      rcases starts with other | ⟨bracket, spells⟩
      · exact fun applied => other (name_of_operator? applied)
      · exact unapplied_of_sign spells nofun _

/-- The loop extends the product of what it has gathered by one part after the other. -/
theorem reads_termTail (read : ∀ part ∈ parts, ReadsFactor factor part.group part.node) (ends : EndsTerm back)
    (run : List Formula) (enough : (spelled parts).length ≤ limit) :
    Reads (Grammar.termTail factor run limit) (spelled parts) (folded (Formula.product run) parts) back := by
  induction parts generalizing run limit with
  | nil => exact reads_no_factor ends run limit
  | cons part parts ih =>
    have readPart := read part List.mem_cons_self _ (unapplied_spelled ends parts)
    have readRest (run : List Formula) (limit : Nat) (enough : (spelled parts).length ≤ limit) :=
      ih (fun other member => read other (List.mem_cons_of_mem _ member)) run enough
    obtain ⟨joint, group, node, opens⟩ := part
    cases joint with
    | sign op multiplies element spells =>
      have shape : spelled (⟨.sign op multiplies element spells, group, node, opens⟩ :: parts) =
          element :: (group ++ spelled parts) := rfl
      rw [shape, List.length_cons, List.length_append] at enough
      rw [shape]
      cases limit with
      | zero => omega
      | succ limit =>
        intro taken owner
        have found : Row.operator? ⟨taken, element :: (group ++ spelled parts) ++ back, owner⟩ =
            some (binarySign op) := spells
        have extended := readRest [.binary op (Formula.product run) node] limit (by omega)
        rw [product_single] at extended
        rw [termTail_signed op multiplies found]
        exact reads_behind_sign spells (reads_bind readPart extended) taken owner
    | beside =>
      obtain ⟨first, rest, rfl, starts⟩ := opens rfl
      have shape : spelled (⟨.beside, first :: rest, node, opens⟩ :: parts) = first :: rest ++ spelled parts := rfl
      rw [shape, List.cons_append, List.length_cons, List.length_append] at enough
      rw [shape]
      cases limit with
      | zero => omega
      | succ limit =>
        intro taken owner
        have extended := readRest (run ++ [node]) limit (by omega)
        rw [product_append] at extended
        have unsigned (operator : Operator) (found : first.operator? = some operator) :
            operator ≠ .times ∧ operator ≠ .divide ∧ operator.endsTerm = false := by
          rcases starts with other | ⟨bracket, spells⟩
          · exact absurd (name_of_operator? found) other
          · cases spells.symm.trans found
            exact ⟨nofun, nofun, rfl⟩
        have begun : Row.rest ⟨taken, first :: rest ++ spelled parts ++ back, owner⟩ = first :: _ := rfl
        rw [termTail_beside begun unsigned]
        exact reads_bind readPart extended taken owner

private theorem reads_folded (readFirst : ReadsFactor factor first node)
    (read : ∀ part ∈ parts, ReadsFactor factor part.group part.node) (ends : EndsTerm back) :
    Reads (Grammar.termWith factor) (first ++ spelled parts) (folded node parts) back := by
  refine reads_bind (readFirst _ (unapplied_spelled ends parts)) fun taken owner => ?_
  rw [get_bind]
  have tail : Reads (Grammar.termTail factor [node] (spelled parts ++ back).length) _ _ back :=
    reads_termTail read ends [node] (by simp)
  rw [product_single] at tail
  exact tail taken owner

end Loop

/-! ## Terms -/

private theorem listWeight_group_le {part : Part} {parts : List Part} (member : part ∈ parts) :
    Element.listWeight part.group ≤ Element.listWeight (spelled parts) := by
  induction parts with
  | nil => cases member
  | cons other parts ih =>
    rw [spelled, List.flatMap_cons, listWeight_append, Part.elements,
      listWeight_append]
    rcases List.mem_cons.mp member with rfl | member
    · omega
    · have := ih member
      rw [spelled] at this
      omega

private theorem recognised_of_readInPlace {back : List Element} (read : ReadInPlace back owner taken parts) :
    ∀ part ∈ parts, part.Recognised := by
  induction parts generalizing taken with
  | nil => exact fun _ member => nomatch member
  | cons part parts ih =>
    obtain ⟨ran, rest⟩ := read
    intro other member
    rcases List.mem_cons.mp member with rfl | member
    · exact fun depth enough => readsFactor_of_factor ran rfl enough
    · exact ih rest other member

private theorem recognised_of_timesWritten (written : TimesWritten formula parts parts')
    (read : ∀ part ∈ parts, part.Recognised) : ∀ part ∈ parts', part.Recognised := by
  induction written with
  | none => exact read
  | kept rest ih =>
    rw [List.forall_mem_cons] at read ⊢
    exact ⟨read.1, ih read.2⟩
  | written beside filled filledPart spells rest ih =>
    rw [List.forall_mem_cons] at read ⊢
    exact ⟨read.1, ih read.2⟩

private theorem extend_filled {joint : Joint} (beside : joint = .beside) (filled : formula.isEmpty = false)
    (filledFactor : factor.isEmpty = false) : joint.extend formula factor = .binary .mul formula factor := by
  subst beside
  simp [Joint.extend, filled, filledFactor]

/-- Writing a sign between factors that are not empty is what standing beside each other means. -/
theorem folded_of_timesWritten (written : TimesWritten formula parts parts') :
    folded formula parts' = folded formula parts := by
  induction written with
  | none => rfl
  | kept rest ih => exact ih
  | written beside filled filledPart spells rest ih =>
    rw [folded, folded, List.foldl_cons, List.foldl_cons, extend_filled beside filled filledPart]
    exact ih

private theorem term_of_recognised {back : List Element}
    (readFirst : ∀ depth, Element.listWeight first < depth → ReadsFactor (Grammar.factorAt depth) first node)
    (read : ∀ part ∈ parts, part.Recognised) (ends : EndsTerm back) (taken : Nat) (owner : Option Nat) :
    Grammar.term ⟨taken, first ++ spelled parts ++ back, owner⟩ =
      .ok (folded node parts) ⟨taken + (first ++ spelled parts).length, back, owner⟩ := by
  have weight : Row.weight ⟨taken, first ++ spelled parts ++ back, owner⟩ =
      Element.listWeight first + Element.listWeight (spelled parts) + Element.listWeight back := by
    rw [Row.weight, listWeight_append, listWeight_append]
  refine reads_folded (readFirst _ ?_) (fun part member => read part member _ ?_) ends taken owner
  · omega
  · have := listWeight_group_le member
    omega

/-- Where the rule for a factor reads the groups of a row one after the other, the rule for a term reads them all and
gives the left fold of their formulas; and it still gives it once signs of multiplication have been written between
groups that are not empty. -/
theorem term_is_left_fold_of_factors (first : List Element) (node : Formula) (parts : List Part) (back : List Element)
    (taken : Nat) (owner : Option Nat)
    (readFirst : Grammar.factor ⟨taken, first ++ (spelled parts ++ back), owner⟩ =
      .ok node ⟨taken + first.length, spelled parts ++ back, owner⟩)
    (readParts : ReadInPlace back owner (taken + first.length) parts) (ends : EndsTerm back) :
    Grammar.term ⟨taken, first ++ spelled parts ++ back, owner⟩ =
        .ok (folded node parts) ⟨taken + (first ++ spelled parts).length, back, owner⟩ ∧
      ∀ parts', TimesWritten node parts parts' →
        Grammar.term ⟨taken, first ++ spelled parts' ++ back, owner⟩ =
          .ok (folded node parts) ⟨taken + (first ++ spelled parts').length, back, owner⟩ := by
  have recognisedFirst (depth : Nat) (enough : Element.listWeight first < depth) :
      ReadsFactor (Grammar.factorAt depth) first node := readsFactor_of_factor readFirst rfl enough
  have recognised := recognised_of_readInPlace readParts
  refine ⟨term_of_recognised recognisedFirst recognised ends taken owner, fun parts' written => ?_⟩
  rw [← folded_of_timesWritten written]
  exact term_of_recognised recognisedFirst (recognised_of_timesWritten written recognised) ends taken owner

/-- A variable, beside the factors in front of it. -/
def besideVariable (name : String) : Part :=
  ⟨.beside, [⟨"mi", name, 1, []⟩], .identifier name, fun _ => ⟨_, _, rfl, .inl (ne_of_beq_false rfl)⟩⟩

/-- The factors behind the first of `2 x / y z`, with an empty group in front of the last. -/
def quotientParts (x z : Part) : List Part :=
  [x, ⟨.sign .div (.inr rfl) (signOf .divide) rfl, [⟨"mi", "y", 1, []⟩], .identifier "y", nofun⟩,
    ⟨.beside, [⟨"mrow", "", 1, []⟩], .empty, fun _ => ⟨_, _, rfl, .inl (by decide)⟩⟩, z]

/-- The formula of `2 x / y z`. -/
def quotient : Formula :=
  .binary .mul (.binary .div (.binary .mul (.number (.integer 2)) (.identifier "x")) (.identifier "y"))
    (.identifier "z")

/-- In `2 x / y z` both products may be written with a sign. -/
theorem quotient_with_signs_written :
    Grammar.term ⟨0, [⟨"mn", "2", 1, []⟩, ⟨"mi", "x", 1, []⟩, signOf .divide, ⟨"mi", "y", 1, []⟩,
        ⟨"mrow", "", 1, []⟩, ⟨"mi", "z", 1, []⟩, signOf .plus], none⟩ = .ok quotient ⟨6, [signOf .plus], none⟩ ∧
      Grammar.term ⟨0, [⟨"mn", "2", 1, []⟩, signOf .times, ⟨"mi", "x", 1, []⟩, signOf .divide, ⟨"mi", "y", 1, []⟩,
        ⟨"mrow", "", 1, []⟩, signOf .times, ⟨"mi", "z", 1, []⟩, signOf .plus], none⟩ =
          .ok quotient ⟨8, [signOf .plus], none⟩ := by
  have fold := term_is_left_fold_of_factors [⟨"mn", "2", 1, []⟩] (.number (.integer 2))
    (quotientParts (besideVariable "x") (besideVariable "z")) [signOf .plus] 0 none rfl
    ⟨rfl, rfl, rfl, rfl, trivial⟩ (.inr ⟨.plus, rfl, rfl⟩)
  have times := signOf_spells .times
  have again := fold.2
    (quotientParts ((besideVariable "x").multiplied _ times) ((besideVariable "z").multiplied _ times))
    (.written rfl rfl rfl times (.kept (.kept (.written rfl rfl rfl times .none))))
  exact ⟨fold.1, again⟩

end FormulaSheet.TermFold
