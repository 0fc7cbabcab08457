import Mathlib.Data.List.Forall2
import FormulaSheet.Proofs.ReadingLocality

/-! The spellings of a list. The arguments of a call and the parameters of a function can stand in brackets in the row
of the function's name, or in one element behind it: in brackets or bare in a row, or fenced, with any number of rows
around that. All spellings of the same elements are read as the same list, so that the call or the head of the function
is the same, and so is the fault of a call with the wrong number of arguments. -/
namespace FormulaSheet.ListSpellings
open Markup (Element)
open Rule FormulaReading RowCompletion RenderedFormulas ReadingLocality Sequencing

/-! ## Spellings -/

def Comma (gap : List Element) : Prop := ∃ comma, gap = [comma] ∧ comma.operator? = some .comma

def OptionalComma (gap : List Element) : Prop := gap = [] ∨ Comma gap

/-- The elements in one row, with a gap between each two of them. -/
inductive Spread (between : List Element → Prop) : List Element → List Element → Prop where
  | none : Spread between [] []
  | last : Spread between [element] [element]
  | next (separates : between gap) (rest : Spread between (second :: others) row) :
      Spread between (element :: second :: others) (element :: (gap ++ row))

/-- The row is the list in brackets of one kind. -/
inductive Bracketed (elements : List Element) : List Element → Prop where
  | intro {bracket opening closing row} (opens : opening.operator? = some (.opening bracket))
      (spread : Spread Comma elements row) (closes : closing.operator? = some (.closing bracket)) :
      Bracketed elements (opening :: (row ++ [closing]))

/-- The group holds the list, with any number of rows around it. -/
inductive Holds (elements : List Element) : Element → Prop where
  | bracketed (tag : group.name = "mrow") (inside : Bracketed elements group.children) : Holds elements group
  | bare (tag : group.name = "mrow") (inside : Spread Comma elements group.children) : Holds elements group
  | fenced (tag : group.name = "mfenced") (inside : Spread OptionalComma elements group.children) :
      Holds elements group
  | wrapped (tag : group.name = "mrow") (inside : group.children = [child]) (holds : Holds elements child) :
      Holds elements group

/-- The ways to write a list behind the sign of an application. -/
inductive Spelling (elements : List Element) : List Element → Prop where
  | flat (inside : Bracketed elements row) : Spelling elements row
  | group (holds : Holds elements group) : Spelling elements [group]

/-! ## Reading a list -/

section Lists

variable {α : Type} {item : Rule α} {value : α} {values : List α} {element : Element} {elements row : List Element}

/-- The element stands for an item and is neither an operator nor a group. -/
structure Stands (item : Rule α) (value : α) (element : Element) : Prop where
  read : ReadsItem item value [element]
  plain : element.name ≠ "mo" ∧ element.name ≠ "mrow" ∧ element.name ≠ "mfenced"

private theorem operator?_of_tag (other : element.name ≠ "mo") : element.operator? = none := by
  rw [Element.operator?, if_neg other]

private theorem commas_of_spread (stand : List.Forall₂ (Stands item) values elements)
    (spread : Spread Comma elements row)
    (several : elements ≠ []) : Commas (ReadsItem item) values row := by
  induction spread generalizing values with
  | none => exact absurd rfl several
  | last =>
    cases stand with
    | cons first rest =>
      cases rest
      exact .last first.read
  | next separates rest ih =>
    obtain ⟨comma, rfl, spells⟩ := separates
    cases stand with
    | cons first rest => exact .next first.read spells (ih rest (by simp))

private theorem listed_of_spread (stand : List.Forall₂ (Stands item) values elements)
    (spread : Spread Comma elements row) :
    Listed (ReadsItem item) values row := by
  cases elements with
  | nil =>
    cases stand
    cases spread
    exact .none
  | cons first others => exact .items (commas_of_spread stand spread (by simp))

/-- A row of elements that stand for items does not begin with an operator. -/
theorem spread_begins (stand : List.Forall₂ (Stands item) values elements) (spread : Spread between elements row)
    (several : values ≠ []) (back : List Element) : operatorAt (row ++ back) = none := by
  cases stand with
  | nil => exact absurd rfl several
  | cons first rest =>
    have plain := operator?_of_tag first.plain.1
    cases spread with
    | last => exact plain
    | next separates rest => exact plain

private theorem reads_bracketed_list (stand : List.Forall₂ (Stands item) values elements)
    (opens : opening.operator? = some (.opening bracket)) (spread : Spread Comma elements row)
    (closes : closing.operator? = some (.closing bracket)) (back : List Element) :
    Reads (bracketed bracket item) (opening :: (row ++ [closing])) values back := by
  refine reads_bracketed opens closes (listed_of_spread stand spread) fun several => ?_
  rw [List.append_assoc, spread_begins stand spread several]
  exact nofun

/-- At an element, the loop reads an item. -/
theorem bareItems_cons (taken : Nat) (owner : Option Nat) :
    bareItems item (limit + 1) ⟨taken, element :: row, owner⟩ = (do
      let first ← item
      if (← Rule.operator?) = some Operator.comma then
        let _ ← take "mo"
      else finish
      return first :: (← bareItems item limit)) ⟨taken, element :: row, owner⟩ :=
  rfl

private theorem bare_item (stands : Stands item value element) (separates : comma.operator? = some .comma)
    (rest : Reads (bareItems item limit) row values []) :
    Reads (bareItems item (limit + 1)) (element :: comma :: row) (value :: values) [] := by
  intro taken owner
  rw [List.cons_append, bareItems_cons]
  have found : operatorAt (comma :: row ++ []) = some .comma := separates
  refine reads_bind (stands.read _ (.inr (.inl found))) (reads_operator found ?_) taken owner
  rw [if_pos rfl]
  exact reads_behind_sign separates (reads_map rest)

private theorem bare_last (stands : Stands item value element) (limit : Nat) :
    Reads (bareItems item (limit + 1)) [element] [value] [] := by
  intro taken owner
  rw [List.cons_append, bareItems_cons]
  have finished : Reads finish [] () ([] ++ []) := fun _ _ => rfl
  have none : Reads (bareItems item limit) [] [] [] := fun _ _ => bareItems_exhausted rfl
  have ends : EndsSum (([] ++ []) ++ []) := .inl rfl
  refine reads_bind (stands.read _ ends) (reads_operator rfl ?_) taken owner
  rw [if_neg nofun]
  exact reads_bind finished (reads_map none)

private theorem reads_bareItems (stand : List.Forall₂ (Stands item) values elements)
    (spread : Spread Comma elements row)
    (enough : row.length ≤ limit) : Reads (bareItems item limit) row values [] := by
  induction spread generalizing values limit with
  | none =>
    cases stand
    exact fun _ _ => bareItems_exhausted rfl
  | last =>
    cases stand with
    | cons first rest =>
      cases rest
      cases limit with
      | zero => cases enough
      | succ limit => exact bare_last first limit
  | next separates rest ih =>
    obtain ⟨comma, rfl, spells⟩ := separates
    cases stand with
    | cons first others =>
      cases limit with
      | zero => cases enough
      | succ limit => exact bare_item first spells (ih others (by simp at enough; omega))

private theorem fenced_none : Reads (fencedItems item limit) [] [] [] := fun _ _ => fencedItems_exhausted rfl

/-- At an element, the loop looks whether it is a comma. -/
theorem fencedItems_cons (taken : Nat) (owner : Option Nat) :
    fencedItems item (limit + 1) ⟨taken, element :: row, owner⟩ = (do
      if (← Rule.operator?) = some Operator.comma then
        let _ ← take "mo"
        fencedItems item limit
      else
        let window ← takeWindow
        let first ← within window (whole item)
        return first :: (← fencedItems item limit)) ⟨taken, element :: row, owner⟩ :=
  rfl

private theorem fenced_comma (separates : comma.operator? = some .comma)
    (rest : Reads (fencedItems item limit) row values []) :
    Reads (fencedItems item (limit + 1)) (comma :: row) values [] := by
  intro taken owner
  rw [List.cons_append, fencedItems_cons]
  have found : operatorAt (comma :: row ++ []) = some .comma := separates
  refine reads_operator found ?_ taken owner
  rw [if_pos rfl]
  exact reads_behind_sign separates rest

private theorem fenced_item (stands : Stands item value element) (rest : Reads (fencedItems item limit) row values []) :
    Reads (fencedItems item (limit + 1)) (element :: row) (value :: values) [] := by
  intro taken owner
  rw [List.cons_append, fencedItems_cons]
  have plain : operatorAt ([element] ++ ([] ++ row) ++ []) = none := operator?_of_tag stands.plain.1
  have window : Reads takeWindow [element] (Row.ofElement element) (([] ++ row) ++ []) := fun _ _ => rfl
  have inside : Reads (within (Row.ofElement element) (whole item)) [] value (row ++ []) :=
    reads_within (reads_whole (stands.read [] (.inl rfl)))
  refine reads_operator plain ?_ taken owner
  rw [if_neg nofun]
  exact reads_bind window (reads_bind inside (reads_map rest))

private theorem reads_fencedItems (stand : List.Forall₂ (Stands item) values elements)
    (spread : Spread OptionalComma elements row) (enough : row.length ≤ limit) :
    Reads (fencedItems item limit) row values [] := by
  induction spread generalizing values limit with
  | none =>
    cases stand
    exact fenced_none
  | last =>
    cases stand with
    | cons first rest =>
      cases rest
      cases limit with
      | zero => cases enough
      | succ limit => exact fenced_item first fenced_none
  | next separates rest ih =>
    cases stand with
    | cons first others =>
      cases limit with
      | zero => cases enough
      | succ limit =>
        refine fenced_item first ?_
        rcases separates with rfl | ⟨comma, rfl, spells⟩
        · exact ih others (by simpa using enough)
        · cases limit with
          | zero => cases Nat.le_of_succ_le_succ enough
          | succ limit => exact fenced_comma spells (ih others (by simpa using enough))

/-! ## Lists in groups -/

/-- The row at the heart of a group is read as the list. -/
def Read (item : Rule α) (values : List α) (core : Core) : Prop :=
  Reads (if core.isFenced then fenced item else Rule.list item) core.row.rest values []

private theorem read_bracketed (stand : List.Forall₂ (Stands item) values elements)
    (bracketed : Bracketed elements row) :
    Reads (Rule.list item) row values [] := by
  cases bracketed with
  | intro opens spread closes => exact reads_list opens (reads_bracketed_list stand opens spread closes [])

/-- A list without brackets begins with no operator, and is tried as a bare one only. -/
theorem read_bare (stand : List.Forall₂ (Stands item) values elements) (spread : Spread Comma elements row) :
    Reads (Rule.list item) row values [] := by
  intro taken owner
  have plain : Row.operator? ⟨taken, row ++ [], owner⟩ = none := by
    cases values with
    | nil =>
      cases stand
      cases spread
      rfl
    | cons value values => exact spread_begins stand spread (List.cons_ne_nil value values) []
  rw [Rule.list, plain]
  have enough : row.length ≤ (row ++ ([] : List Element)).length := by simp
  exact reads_bareItems stand spread enough taken owner

private theorem read_fenced (stand : List.Forall₂ (Stands item) values elements)
    (spread : Spread OptionalComma elements row) :
    Reads (fenced item) row values [] := by
  intro taken owner
  have enough : row.length ≤ (row ++ ([] : List Element)).length := by simp
  exact reads_fencedItems stand spread enough taken owner

private theorem core_of_plain (stands : Stands item value element) (owner : Option Nat) :
    element.core owner = ⟨Row.ofList [element] owner, false⟩ := by
  obtain ⟨-, plain⟩ := stands
  obtain ⟨name, text, line, children⟩ := element
  unfold Element.core
  split
  all_goals simp_all

private theorem core_of_wrapped {group : Element} (tag : group.name = "mrow" ∨ group.name = "mfenced")
    (single : group.children = [child]) (owner : Option Nat) : group.core owner = child.core (some group.line) := by
  obtain ⟨name, text, line, children⟩ := group
  cases single
  rcases tag with rfl | rfl <;> rfl

private theorem core_of_fenced {group : Element} (tag : group.name = "mfenced")
    (several : group.children = first :: second :: rest) (owner : Option Nat) :
    group.core owner = ⟨Row.ofChildren group, true⟩ := by
  obtain ⟨name, text, line, children⟩ := group
  cases tag
  cases several
  rfl

private theorem core_of_empty {group : Element} (tag : group.name = "mrow" ∨ group.name = "mfenced")
    (none : group.children = []) (owner : Option Nat) :
    ∃ isFenced, group.core owner = ⟨Row.ofChildren group, isFenced⟩ := by
  obtain ⟨name, text, line, children⟩ := group
  cases none
  rcases tag with rfl | rfl
  · exact ⟨false, rfl⟩
  · exact ⟨true, rfl⟩

/-- A group without elements or with a single one is read alike, fenced or not. -/
theorem read_short {group : Element} (stand : List.Forall₂ (Stands item) values elements)
    (tag : group.name = "mrow" ∨ group.name = "mfenced") (inside : group.children = elements)
    (short : elements.length ≤ 1) (owner : Option Nat) : Read item values (group.core owner) := by
  cases stand with
  | nil =>
    obtain ⟨isFenced, core⟩ := core_of_empty tag inside owner
    rw [core, Read, show (Row.ofChildren group).rest = [] from inside]
    cases isFenced with
    | false => exact read_bare .nil .none
    | true => exact read_fenced .nil .none
  | cons first rest =>
    cases rest with
    | nil =>
      rw [core_of_wrapped tag inside, core_of_plain first]
      exact read_bare (.cons first .nil) .last
    | cons => simp at short

private theorem spread_cons (spread : Spread between (first :: others) row) : ∃ rest, row = first :: rest := by
  cases spread with
  | last => exact ⟨_, rfl⟩
  | next separates rest => exact ⟨_, rfl⟩

/-- A spread of two elements or more has two elements or more. -/
theorem spread_several (spread : Spread between (first :: second :: others) row) :
    ∃ next rest, row = first :: next :: rest := by
  cases spread with
  | @next gap _ _ row _ separates rest =>
    obtain ⟨tail, rfl⟩ := spread_cons rest
    cases gap with
    | nil => exact ⟨_, _, rfl⟩
    | cons comma others => exact ⟨_, _, rfl⟩

private theorem spread_short (spread : Spread between elements row) (short : elements.length ≤ 1) : row = elements := by
  cases spread with
  | none => rfl
  | last => rfl
  | next separates rest => simp at short

private theorem bracketed_several (inside : Bracketed elements row) :
    ∃ first second rest, row = first :: second :: rest := by
  cases inside with
  | @intro bracket opening closing row opens spread closes =>
    have filled : row ++ [closing] ≠ [] := by simp
    obtain ⟨second, rest, shape⟩ := List.exists_cons_of_ne_nil filled
    exact ⟨opening, second, rest, by rw [shape]⟩

private theorem read_core (stand : List.Forall₂ (Stands item) values elements) (holds : Holds elements group)
    (owner : Option Nat) : Read item values (group.core owner) := by
  induction holds generalizing owner with
  | bracketed tag inside =>
    obtain ⟨first, second, rest, several⟩ := bracketed_several inside
    rw [core_of_row tag several]
    exact read_bracketed stand inside
  | bare tag inside =>
    rcases elements with _ | ⟨first, _ | ⟨second, others⟩⟩
    · exact read_short stand (.inl tag) (spread_short inside (by simp)) (by simp) owner
    · exact read_short stand (.inl tag) (spread_short inside (by simp)) (by simp) owner
    · obtain ⟨next, rest, several⟩ := spread_several inside
      rw [core_of_row tag several]
      exact read_bare stand inside
  | fenced tag inside =>
    rcases elements with _ | ⟨first, _ | ⟨second, others⟩⟩
    · exact read_short stand (.inr tag) (spread_short inside (by simp)) (by simp) owner
    · exact read_short stand (.inr tag) (spread_short inside (by simp)) (by simp) owner
    · obtain ⟨next, rest, several⟩ := spread_several inside
      rw [core_of_fenced tag several]
      exact read_fenced stand inside
  | wrapped tag inside holds ih =>
    rw [core_of_wrapped (.inl tag) inside]
    exact ih _

private theorem reads_held (stand : List.Forall₂ (Stands item) values elements) (holds : Holds elements group)
    (back : List Element) : Reads (listElement item) [group] values back := by
  intro taken owner
  exact reads_within (read_core stand holds (some group.line)) (taken + 1) owner

end Lists

/-! ## Calls -/

/-- What a rule gives, with the row that it leaves. -/
def leaving {α : Type} (outcome : Except Fault α) (row : Row) : EStateM.Result Fault Row α :=
  match outcome with
  | .ok value => .ok value row
  | .error fault => .error fault row

private theorem holds_tag (holds : Holds elements group) : group.name = "mrow" ∨ group.name = "mfenced" := by
  cases holds with
  | bracketed tag inside => exact .inl tag
  | bare tag inside => exact .inl tag
  | fenced tag inside => exact .inr tag
  | wrapped tag inside holds => exact .inl tag

section Calls

variable {elements row : List Element}

private theorem reads_spelling {expression : Rule Formula} (stand : List.Forall₂ (Stands expression) nodes elements)
    (spelling : Spelling elements row) (back : List Element) :
    Reads (Grammar.argumentsWith expression) row nodes back := by
  cases spelling with
  | flat inside =>
    cases inside with
    | @intro bracket opening closing row opens spread closes =>
      have found : operatorAt (opening :: (row ++ [closing]) ++ back) = some (.opening bracket) := opens
      exact reads_operator found (reads_bracketed_list stand opens spread closes back)
  | @group group holds =>
    have other : group.name ≠ "mo" := by
      rcases holds_tag holds with tag | tag <;> rw [tag] <;> decide
    have found : operatorAt ([group] ++ back) = none := operator?_of_tag other
    exact reads_operator found (reads_held stand holds back)

private theorem factorWith_named {factor : Rule Formula} {name : Element}
    (tag : name.name = "mi" ∨ name.name = "mtext") :
    Grammar.factorWith factor ⟨taken, name :: row, owner⟩ =
      Grammar.namedWith factor name ⟨taken, name :: row, owner⟩ := by
  obtain ⟨tagName, text, line, children⟩ := name
  rcases tag with rfl | rfl <;> rfl

private theorem call_of_arguments {factor : Rule Formula} {name sign : Element}
    (tag : name.name = "mi" ∨ name.name = "mtext")
    (named : name.value.isEmpty = false) (applies : sign.operator? = some .application)
    (read : Reads (Grammar.argumentsWith (Grammar.expressionWith factor)) row nodes back) :
    Grammar.factorWith factor ⟨taken, name :: sign :: (row ++ back), owner⟩ =
      leaving (Grammar.invocation name.value nodes name.line) ⟨taken + 2 + row.length, back, owner⟩ := by
  have ranName : Grammar.identifier ⟨taken, name :: sign :: (row ++ back), owner⟩ =
      .ok name.value ⟨taken + 1, sign :: (row ++ back), owner⟩ := reads_identifier tag named taken owner
  have found : Row.operator? ⟨taken + 1, sign :: (row ++ back), owner⟩ = some .application := applies
  rw [factorWith_named tag, Grammar.namedWith, bind_of_ok ranName, operator?_bind, if_pos found,
    bind_of_ok (take_of_sign applies), bind_of_ok (read (taken + 1 + 1) owner)]
  cases Grammar.invocation name.value nodes name.line with
  | ok call => rfl
  | error fault => rfl

/-- The tags of the elements that can be arguments by themselves. -/
def argumentTags : List String := ["mn", "mi", "mtext", "mfrac", "msup", "mroot", "msqrt"]

/-- An element that is read as a factor when it stands alone. -/
structure Argument where
  element : Element
  node : Formula
  tag : element.name ∈ argumentTags
  read : ∃ left, Grammar.factor (Row.ofElement element) = .ok node left

private theorem plain_of_tag (tag : name ∈ argumentTags) : name ≠ "mo" ∧ name ≠ "mrow" ∧ name ≠ "mfenced" := by
  refine ⟨?_, ?_, ?_⟩ <;> rintro rfl <;> revert tag <;> decide

/-- An argument is read as an item of a list at any depth that is enough for it. -/
theorem argument_stands (argument : Argument) (enough : argument.element.weight < depth) :
    Stands (Grammar.expressionWith (Grammar.factorAt depth)) argument.node argument.element := by
  refine ⟨fun back ends => ?_, plain_of_tag argument.tag⟩
  obtain ⟨left, ran⟩ := argument.read
  have shorter : left.rest.length < 1 := factorAt_advances _ (gives_of_ok ran)
  have none : left.rest = [] := List.length_eq_zero_iff.mp (by omega)
  have split : (Row.ofElement argument.element).rest = [argument.element] ++ left.rest := by rw [none]; rfl
  have light : Element.listWeight [argument.element] < depth := by
    rwa [Element.listWeight, Element.listWeight]
  have read := readsFactor_of_factor ran split light
  exact reads_expression (opensSum_of_term (opensTerm_of_factor read)) ends

private theorem weight_le_of_mem (member : element ∈ elements) : element.weight ≤ Element.listWeight elements := by
  induction elements with
  | nil => cases member
  | cons first rest ih =>
    rw [Element.listWeight]
    rcases List.mem_cons.mp member with rfl | member
    · omega
    · have := ih member
      omega

private theorem mem_of_spread (spread : Spread between elements row) (member : element ∈ elements) : element ∈ row := by
  induction spread with
  | none => exact member
  | last => exact member
  | next separates rest ih =>
    rcases List.mem_cons.mp member with rfl | member
    · exact List.mem_cons_self
    · exact List.mem_cons_of_mem _ (List.mem_append_right _ (ih member))

private theorem mem_of_bracketed (inside : Bracketed elements row) (member : element ∈ elements) : element ∈ row := by
  cases inside with
  | intro opens spread closes =>
    exact List.mem_cons_of_mem _ (List.mem_append_left _ (mem_of_spread spread member))

private theorem weight_le_of_child {group : Element} (member : element ∈ group.children) :
    element.weight ≤ group.weight := by
  rw [weight_eq group]
  exact Nat.le_trans (weight_le_of_mem member) (Nat.le_add_left _ _)

private theorem weight_le_of_holds (holds : Holds elements group) (member : element ∈ elements) :
    element.weight ≤ group.weight := by
  induction holds with
  | bracketed tag inside => exact weight_le_of_child (mem_of_bracketed inside member)
  | bare tag inside => exact weight_le_of_child (mem_of_spread inside member)
  | fenced tag inside => exact weight_le_of_child (mem_of_spread inside member)
  | wrapped tag inside holds ih => exact Nat.le_trans ih (weight_le_of_child (by simp [inside]))

private theorem weight_le_of_spelling (spelling : Spelling elements row) (member : element ∈ elements) :
    element.weight ≤ Element.listWeight row := by
  cases spelling with
  | flat inside => exact weight_le_of_mem (mem_of_bracketed inside member)
  | group holds =>
    rw [Element.listWeight, Element.listWeight]
    exact weight_le_of_holds holds member

private theorem call_of_spelling {name sign : Element} (tag : name.name = "mi" ∨ name.name = "mtext")
    (named : name.value.isEmpty = false) (applies : sign.operator? = some .application) (arguments : List Argument)
    (spelling : Spelling (arguments.map Argument.element) row) (taken : Nat) (back : List Element)
    (owner : Option Nat) :
    Grammar.factor ⟨taken, name :: sign :: (row ++ back), owner⟩ =
      leaving (Grammar.invocation name.value (arguments.map Argument.node) name.line)
        ⟨taken + 2 + row.length, back, owner⟩ := by
  have stand : List.Forall₂ (Stands (Grammar.expressionWith
      (Grammar.factorAt (Row.weight ⟨taken, name :: sign :: (row ++ back), owner⟩))))
      (arguments.map Argument.node) (arguments.map Argument.element) := by
    rw [List.forall₂_map_left_iff, List.forall₂_map_right_iff, List.forall₂_same]
    intro argument member
    refine argument_stands argument ?_
    have inside := weight_le_of_spelling spelling (List.mem_map_of_mem member)
    rw [Row.weight, Element.listWeight, Element.listWeight, listWeight_append, weight_eq name]
    omega
  exact call_of_arguments tag named applies (reads_spelling stand spelling back)

end Calls

/-! ## Heads -/

/-- What the head of a function declares: its name is free and its parameters are different variables. -/
def declared (line : Option Nat) (name : String) (parameters : List String) : Except Fault (String × List String) :=
  if (Builtin.ofName? name).isSome ∨ name = piName then .error (.malformed (.redeclaredBuiltin name) line)
  else (Grammar.checkParameters name line [] parameters).map fun _ => (name, parameters)

/-- A name that can be a parameter. -/
structure Parameter where
  element : Element
  tag : element.name = "mi" ∨ element.name = "mtext"
  named : element.value.isEmpty = false

private theorem parameter_stands (parameter : Parameter) :
    Stands Grammar.identifier parameter.element.value parameter.element where
  read back _ := reads_identifier parameter.tag parameter.named
  plain := by rcases parameter.tag with tag | tag <;> rw [tag] <;> decide

/-- The last step of a head, once its parameters are known. -/
theorem checked_eq (name : String) (line : Option Nat) (parameters : List String) (row : Row) :
    (match Grammar.checkParameters name line [] parameters with
      | .ok _ => pure (name, parameters)
      | .error fault => throw fault : Rule (String × List String)) row =
      leaving ((Grammar.checkParameters name line [] parameters).map fun _ => (name, parameters)) row := by
  cases Grammar.checkParameters name line [] parameters with
  | ok done => rfl
  | error fault => rfl

/-- The parameters of a head that are left behind its name: one element that holds them, or a row of its own. -/
def ReadsParameters (row : List Element) (parameters : List String) : Prop :=
  row.length = 1 ∧ Reads (listElement Grammar.identifier) row parameters [] ∨
    row.length ≠ 1 ∧ Reads (Rule.list Grammar.identifier) row parameters []

private theorem head_of_parameters {name sign : Element} (tag : name.name = "mi" ∨ name.name = "mtext")
    (named : name.value.isEmpty = false) (applies : sign.operator? = some .application)
    (read : ReadsParameters row parameters) (line : Option Nat) (taken : Nat) (owner : Option Nat) :
    ∃ left, Grammar.head line ⟨taken, name :: sign :: row, owner⟩ =
      leaving (declared line name.value parameters) left := by
  have ranName : Grammar.identifier ⟨taken, name :: sign :: row, owner⟩ =
      .ok name.value ⟨taken + 1, sign :: row, owner⟩ := reads_identifier tag named taken owner
  have found : Row.operator? ⟨taken + 1, sign :: row, owner⟩ = some .application := applies
  rw [Grammar.head, bind_of_ok ranName]
  by_cases reserved : (Builtin.ofName? name.value).isSome ∨ name.value = piName
  · rw [if_pos reserved, declared, if_pos reserved]
    exact ⟨_, rfl⟩
  · rw [if_neg reserved, declared, if_neg reserved, operator?_bind, if_pos found,
      bind_of_ok (take_of_sign applies), get_bind]
    refine ⟨⟨taken + 1 + 1 + row.length, [], owner⟩, ?_⟩
    rw [← checked_eq]
    rcases read with ⟨single, held⟩ | ⟨several, list⟩
    · have ran := held (taken + 1 + 1) owner
      have remaining : Row.remaining ⟨taken + 1 + 1, row, owner⟩ = 1 := single
      rw [List.append_nil] at ran
      rw [if_pos remaining]
      exact bind_of_ok ran
    · have ran := list (taken + 1 + 1) owner
      have remaining : Row.remaining ⟨taken + 1 + 1, row, owner⟩ ≠ 1 := several
      rw [List.append_nil] at ran
      rw [if_neg remaining]
      exact bind_of_ok ran

private theorem readsParameters_of_spelling (parameters : List Parameter)
    (spelling : Spelling (parameters.map Parameter.element) row) :
    ReadsParameters row (parameters.map (·.element.value)) := by
  have stand : List.Forall₂ (Stands Grammar.identifier) (parameters.map (·.element.value))
      (parameters.map Parameter.element) := by
    rw [List.forall₂_map_left_iff, List.forall₂_map_right_iff, List.forall₂_same]
    exact fun parameter _ => parameter_stands parameter
  cases spelling with
  | flat inside =>
    obtain ⟨first, second, rest, several⟩ := bracketed_several inside
    exact .inr ⟨by simp [several], read_bracketed stand inside⟩
  | group holds => exact .inl ⟨rfl, reads_held stand holds []⟩

/-- However a list is spelled behind a name, the call is the same, with the arguments in order, and so is the fault of a
call with the wrong number of arguments; and the head of a function declares the same parameters. -/
theorem list_spellings_agree (name sign : Element) (tag : name.name = "mi" ∨ name.name = "mtext")
    (named : name.value.isEmpty = false) (applies : sign.operator? = some .application) :
    (∀ (arguments : List Argument) (row : List Element), Spelling (arguments.map Argument.element) row →
      ∀ taken back owner, Grammar.factor ⟨taken, name :: sign :: (row ++ back), owner⟩ =
        leaving (Grammar.invocation name.value (arguments.map Argument.node) name.line)
          ⟨taken + 2 + row.length, back, owner⟩) ∧
    ∀ (parameters : List Parameter) (row : List Element), Spelling (parameters.map Parameter.element) row →
      ∀ line taken owner outside, within ⟨taken, name :: sign :: row, owner⟩ (Grammar.head line) outside =
        leaving (declared line name.value (parameters.map (·.element.value))) outside := by
  refine ⟨fun arguments row spelling => call_of_spelling tag named applies arguments spelling, ?_⟩
  intro parameters row spelling line taken owner outside
  have read := readsParameters_of_spelling parameters spelling
  obtain ⟨left, ran⟩ := head_of_parameters tag named applies read line taken owner
  rw [within, ran]
  cases declared line name.value (parameters.map (·.element.value)) with
  | ok head => rfl
  | error fault => rfl

/-- The arguments of `f(x, 2)`. -/
def twoArguments : List Argument :=
  [⟨⟨"mi", "x", 1, []⟩, .identifier "x", by decide, _, rfl⟩,
    ⟨⟨"mn", "2", 1, []⟩, .number (.integer 2), by decide, _, rfl⟩]

/-- The parameters of `f(x, y)`. -/
def twoParameters : List Parameter :=
  [⟨⟨"mi", "x", 1, []⟩, .inl rfl, rfl⟩, ⟨⟨"mtext", "y", 1, []⟩, .inr rfl, rfl⟩]

/-- A call with two arguments, in brackets in its row and fenced inside another row; and a head with two parameters,
bare in a row and in brackets. -/
theorem two_arguments_in_two_spellings :
    Grammar.factor ⟨0, [⟨"mi", "f", 1, []⟩, signOf .application, signOf (.opening .square), ⟨"mi", "x", 1, []⟩,
        signOf .comma, ⟨"mn", "2", 1, []⟩, signOf (.closing .square)], none⟩ =
      .ok (.call "f" [.identifier "x", .number (.integer 2)]) ⟨7, [], none⟩ ∧
    Grammar.factor ⟨0, [⟨"mi", "f", 1, []⟩, signOf .application, ⟨"mrow", "", 1, [⟨"mfenced", "", 1,
        [⟨"mi", "x", 1, []⟩, ⟨"mn", "2", 1, []⟩]⟩]⟩], none⟩ =
      .ok (.call "f" [.identifier "x", .number (.integer 2)]) ⟨3, [], none⟩ ∧
    within ⟨0, [⟨"mi", "f", 1, []⟩, signOf .application, ⟨"mrow", "", 1,
        [⟨"mi", "x", 1, []⟩, signOf .comma, ⟨"mtext", "y", 1, []⟩]⟩], none⟩ (Grammar.head (some 1)) (Row.ofList [] none) =
      .ok ("f", ["x", "y"]) (Row.ofList [] none) ∧
    within ⟨0, [⟨"mi", "f", 1, []⟩, signOf .application, signOf (.opening .round), ⟨"mi", "x", 1, []⟩,
        signOf .comma, ⟨"mtext", "y", 1, []⟩, signOf (.closing .round)], none⟩ (Grammar.head (some 1))
        (Row.ofList [] none) =
      .ok ("f", ["x", "y"]) (Row.ofList [] none) := by
  obtain ⟨spelledCalls, spelledHeads⟩ := list_spellings_agree ⟨"mi", "f", 1, []⟩ (signOf .application) (.inl rfl) rfl
    (signOf_spells .application)
  have calls := spelledCalls twoArguments
  have heads := spelledHeads twoParameters
  have flat : Spelling (twoArguments.map Argument.element) [signOf (.opening .square), ⟨"mi", "x", 1, []⟩,
      signOf .comma, ⟨"mn", "2", 1, []⟩, signOf (.closing .square)] :=
    .flat (.intro (signOf_spells (.opening .square)) (.next ⟨_, rfl, signOf_spells .comma⟩ .last)
      (signOf_spells (.closing .square)))
  have beside : Spread OptionalComma (twoArguments.map Argument.element)
      (⟨"mi", "x", 1, []⟩ :: ([] ++ [⟨"mn", "2", 1, []⟩])) := .next (Or.inl rfl) .last
  have fenced : Spelling (twoArguments.map Argument.element) [⟨"mrow", "", 1, [⟨"mfenced", "", 1,
      [⟨"mi", "x", 1, []⟩, ⟨"mn", "2", 1, []⟩]⟩]⟩] := .group (.wrapped rfl rfl (.fenced rfl beside))
  have apart : Spread Comma (twoParameters.map Parameter.element)
      (⟨"mi", "x", 1, []⟩ :: ([signOf .comma] ++ [⟨"mtext", "y", 1, []⟩])) :=
    .next ⟨_, rfl, signOf_spells .comma⟩ .last
  have bare : Spelling (twoParameters.map Parameter.element) [⟨"mrow", "", 1,
      [⟨"mi", "x", 1, []⟩, signOf .comma, ⟨"mtext", "y", 1, []⟩]⟩] := .group (.bare rfl apart)
  have bracketed : Spelling (twoParameters.map Parameter.element) [signOf (.opening .round), ⟨"mi", "x", 1, []⟩,
      signOf .comma, ⟨"mtext", "y", 1, []⟩, signOf (.closing .round)] :=
    .flat (.intro (signOf_spells (.opening .round)) apart (signOf_spells (.closing .round)))
  exact ⟨calls _ flat 0 [] none, calls _ fenced 0 [] none, heads _ bare (some 1) 0 none _,
    heads _ bracketed (some 1) 0 none _⟩

end FormulaSheet.ListSpellings
