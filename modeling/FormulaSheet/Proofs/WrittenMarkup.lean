import FormulaSheet.Markup.Element
import FormulaSheet.Proofs.CharacterReferences
import FormulaSheet.Proofs.LineNumbers
import FormulaSheet.Proofs.TokenSpans

/-! Trees of elements and texts written as markup, and read back. Reading goes over the written text once: a
run of character data ends at the next tag, so texts that stand side by side are read as one, and the text
of an element is complete only when its end tag comes. What has been read so far is therefore described
together with the text that is still pending in front of the next tag. -/
namespace FormulaSheet.WrittenMarkup
open Markup Text LineNumbers
open CharacterReferences (decode_reference)
open TokenSpans (opening_of_begins scanFrom_cut splitAngle?_plain)

/-! ## Trees and their markup -/

/-- Whether a tag's name may go on with the character. A colon would begin a local name. -/
def continuesName (c : Char) : Bool := !(isBlank c || c = '/' || c = '>' || c = '<' || c = ':')

/-- A name that a tag carries as it stands. -/
structure TagName where
  first : Char
  rest : List Char
  begins : beginsName first
  continues : ∀ c ∈ rest, continuesName c

namespace TagName

def chars (name : TagName) : List Char := name.first :: name.rest

def text (name : TagName) : String := String.ofList name.chars

end TagName

mutual

/-- An element of a tree, with what stands between its tags. -/
inductive Node where
  | mk (name : TagName) (items : List Item)

inductive Item where
  | text (content : String)
  | node (inner : Node)

end

/-- How a character is written in a text. -/
def escapedChar (c : Char) : List Char :=
  if c = '&' then "&amp;".toList
  else if c = '<' then "&lt;".toList
  else if c = '>' then "&gt;".toList
  else [c]

def escaped (cs : List Char) : List Char := cs.flatMap escapedChar

def startTag (name : TagName) : List Char := '<' :: (name.chars ++ ['>'])

def endTag (name : TagName) : List Char := '<' :: '/' :: (name.chars ++ ['>'])

def emptyTag (name : TagName) : List Char := '<' :: (name.chars ++ ['/', '>'])

mutual

/-- The markup of a tree. A node with nothing inside is a single tag. -/
def Node.markup : Node → List Char
  | .mk name items => if items.isEmpty then emptyTag name else startTag name ++ Item.markupAll items ++ endTag name

def Item.markup : Item → List Char
  | .text content => escaped content.toList
  | .node inner => inner.markup

def Item.markupAll : List Item → List Char
  | [] => []
  | first :: rest => first.markup ++ Item.markupAll rest

end

mutual

/-- All texts of a tree in document order. -/
def Node.texts : Node → String
  | .mk _ items => Item.textsAll items

def Item.texts : Item → String
  | .text content => content
  | .node inner => inner.texts

def Item.textsAll : List Item → String
  | [] => ""
  | first :: rest => first.texts ++ Item.textsAll rest

end

mutual

/-- The element that a tree stands for if it is written behind `before`. -/
def Node.element (before : List Char) : Node → Element
  | .mk name items =>
    { name := name.text
      value := trimmed (Item.textsAll items)
      line := 1 + before.count '\n'
      children := Item.elementsAll (before ++ startTag name) items }

def Item.elements (before : List Char) : Item → List Element
  | .text _ => []
  | .node inner => [inner.element before]

def Item.elementsAll (before : List Char) : List Item → List Element
  | [] => []
  | first :: rest => first.elements before ++ Item.elementsAll (before ++ first.markup) rest

end

/-! ## Tags and texts as tokens -/

private theorem continuesName_of_begins (begins : beginsName c) : continuesName c := by
  have letter : c.isAlpha = true ∨ c = '_' := by simpa [beginsName] using begins
  rcases letter with letter | rfl
  · have range : 65 ≤ c.toNat ∧ c.toNat ≤ 90 ∨ 97 ≤ c.toNat ∧ c.toNat ≤ 122 := by
      change (decide (65 ≤ c.val ∧ c.val ≤ 90) || (97 ≤ c.val && c.val ≤ 122)) = true at letter
      simpa [UInt32.le_iff_toNat_le] using letter
    have apart (d : Char) (outside : d.toNat < 65 ∨ d.toNat = 95) : c ≠ d := by
      rintro rfl
      omega
    simp [continuesName, isBlank, apart]
    omega
  · rfl

private theorem TagName.continues_of_mem (name : TagName) (member : c ∈ name.chars) : continuesName c := by
  rcases List.mem_cons.mp member with rfl | later
  · exact continuesName_of_begins name.begins
  · exact name.continues c later

theorem TagName.not_mem (name : TagName) (reserved : continuesName c = false) : c ∉ name.chars := by
  intro member
  rw [name.continues_of_mem member] at reserved
  cases reserved

/-- A construct is cut off at its bracket if it has no other. -/
theorem cut_construct {inner : List Char} {opening : Opening} (kind : Opening.of (inner ++ '>' :: rest) = opening)
    (construct : opening ∈ [.startTag, .endTag, .skipped]) (plain : '>' ∉ inner) :
    cut (inner ++ '>' :: rest) = ⟨constructToken opening (inner ++ ['>']), inner ++ ['>'], rest⟩ := by
  have split := splitAngle?_plain rest plain
  simp only [List.mem_cons, List.not_mem_nil, or_false] at construct
  rw [cut, kind]
  rcases construct with rfl | rfl | rfl <;> simp only [split]

/-- A name ends in front of the slash or the bracket that ends its tag. -/
theorem tagName_of_name (name : TagName) (ends : c = '/' ∨ c = '>') :
    tagName (name.chars ++ c :: rest) = name.text := by
  have goesOn : ∀ d ∈ name.chars, (!(isBlank d || d = '/' || d = '>')) = true := by
    intro d member
    have := name.continues_of_mem member
    simp_all [continuesName]
  have stops : (!(isBlank c || c = '/' || c = '>')) = false := by
    rcases ends with rfl | rfl <;> decide
  rw [tagName, List.takeWhile_append_of_pos goesOn, List.takeWhile_cons_of_neg (by simp [stops]),
    List.append_nil]
  rfl

private theorem opening_of_name (name : TagName) (rest : List Char) :
    Opening.of ('<' :: (name.chars ++ rest)) = .startTag :=
  opening_of_begins (.startTag name.begins)

private theorem cut_startTag (name : TagName) (rest : List Char) :
    cut (startTag name ++ rest) = ⟨some (.startTag name.text false), startTag name, rest⟩ := by
  have shape : startTag name ++ rest = ('<' :: name.chars) ++ '>' :: rest := by simp [startTag]
  have plain : '>' ∉ '<' :: name.chars := by simp [name.not_mem (by decide : continuesName '>' = false)]
  have notClosed : (startTag name).drop ((startTag name).length - 2) ≠ ['/', '>'] := by
    intro closed
    have member : '/' ∈ startTag name := List.mem_of_mem_drop (closed ▸ List.mem_cons_self)
    simp [startTag, name.not_mem (by decide : continuesName '/' = false)] at member
  have named : tagName ((startTag name).drop 1) = name.text := tagName_of_name name (.inr rfl)
  rw [shape, cut_construct (opening_of_name name _) (by simp) plain]
  change Piece.mk (constructToken .startTag (startTag name)) (startTag name) rest = _
  simp only [constructToken, named, notClosed, decide_false]

private theorem cut_emptyTag (name : TagName) (rest : List Char) :
    cut (emptyTag name ++ rest) = ⟨some (.startTag name.text true), emptyTag name, rest⟩ := by
  have shape : emptyTag name ++ rest = ('<' :: (name.chars ++ ['/'])) ++ '>' :: rest := by simp [emptyTag]
  have inner : '<' :: (name.chars ++ ['/']) ++ ['>'] = emptyTag name := by simp [emptyTag]
  have plain : '>' ∉ '<' :: (name.chars ++ ['/']) := by
    simp [name.not_mem (by decide : continuesName '>' = false)]
  have kind : Opening.of ('<' :: (name.chars ++ ['/']) ++ '>' :: rest) = .startTag := by
    simpa using opening_of_name name ('/' :: '>' :: rest)
  have closed : (emptyTag name).drop ((emptyTag name).length - 2) = ['/', '>'] := by
    have tail : emptyTag name = ('<' :: name.chars) ++ ['/', '>'] := rfl
    rw [tail, List.length_append]
    exact List.drop_left
  have named : tagName ((emptyTag name).drop 1) = name.text := tagName_of_name name (.inl rfl)
  rw [shape, cut_construct kind (by simp) plain, inner]
  simp only [constructToken, named, closed, decide_true]

private theorem cut_endTag (name : TagName) (rest : List Char) :
    cut (endTag name ++ rest) = ⟨some (.endTag name.text), endTag name, rest⟩ := by
  have shape : endTag name ++ rest = ('<' :: '/' :: name.chars) ++ '>' :: rest := by simp [endTag]
  have plain : '>' ∉ '<' :: '/' :: name.chars := by simp [name.not_mem (by decide : continuesName '>' = false)]
  have first := name.continues_of_mem (List.mem_cons_self : name.first ∈ name.chars)
  simp only [continuesName, Bool.not_eq_true', Bool.or_eq_false_iff, decide_eq_false_iff_not] at first
  have kind : Opening.of ('<' :: '/' :: name.chars ++ '>' :: rest) = .endTag := by
    simp [TagName.chars, Opening.of, first]
  have unblanked : trimStart ((endTag name).drop 2) = name.chars ++ ['>'] := by
    simp [endTag, TagName.chars, trimStart, first]
  have named : tagName (trimStart ((endTag name).drop 2)) = name.text := by
    rw [unblanked]
    exact tagName_of_name name (.inr rfl)
  rw [shape, cut_construct kind (by simp) plain]
  change Piece.mk (constructToken .endTag (endTag name)) (endTag name) rest = _
  simp only [constructToken, named]

private theorem decode_escapedChar (c : Char) (rest : List Char) :
    decode (escapedChar c ++ rest) = (decode rest).map (c :: ·) := by
  by_cases ampersand : c = '&'
  · subst ampersand
    exact decode_reference ['a', 'm', 'p'] (by decide) rfl
  by_cases less : c = '<'
  · subst less
    exact decode_reference ['l', 't'] (by decide) rfl
  by_cases greater : c = '>'
  · subst greater
    exact decode_reference ['g', 't'] (by decide) rfl
  · rw [escapedChar, if_neg ampersand, if_neg less, if_neg greater, List.singleton_append, decode,
      if_neg ampersand]

private theorem decode_escaped (cs : List Char) : decode (escaped cs) = some cs := by
  induction cs with
  | nil => simp [escaped, decode]
  | cons c cs ih =>
    rw [escaped, List.flatMap_cons, decode_escapedChar, ← escaped, ih]
    rfl

private theorem escapedChar_plain (c : Char) : escapedChar c ≠ [] ∧ '<' ∉ escapedChar c := by
  unfold escapedChar
  split
  · decide
  · split
    · decide
    · split
      · decide
      · simp_all [eq_comm]

private theorem cut_escaped (nonempty : cs ≠ []) (rest : List Char) :
    cut (escaped cs ++ '<' :: rest) = ⟨some (.text (String.ofList cs)), escaped cs, '<' :: rest⟩ := by
  have plain : ∀ c ∈ escaped cs, decide (c ≠ '<') = true := by
    intro c member
    obtain ⟨d, -, inChar⟩ := List.mem_flatMap.mp member
    rw [decide_eq_true_eq]
    rintro rfl
    exact (escapedChar_plain d).2 inChar
  have kind : Opening.of (escaped cs ++ '<' :: rest) = .characters := by
    cases written : escaped cs with
    | nil =>
      obtain ⟨c, member⟩ := List.exists_mem_of_ne_nil cs nonempty
      exact absurd (List.flatMap_eq_nil_iff.mp written c member) (escapedChar_plain c).1
    | cons c tail =>
      have different : c ≠ '<' := of_decide_eq_true (plain c (written ▸ List.mem_cons_self))
      unfold Opening.of
      split <;> simp_all
  rw [cut, kind]
  dsimp only
  rw [List.takeWhile_append_of_pos plain, List.dropWhile_append_of_pos plain]
  simp [textToken, decode_escaped]

/-! ## Building the tree -/

/-- Building goes on with what is written behind `before`. -/
def runFrom (builder : Builder) (before rest : List Char) : Except Fault Builder :=
  Builder.run (LineTable.ofText (String.ofList (before ++ rest))) builder
    (scanFrom (byteLength before) rest)

/-- One token is taken on the line that the newlines in front of it make. -/
theorem run_token (builder : Builder) (before : List Char) {next : Builder}
    (isCut : cut (slice ++ rest) = ⟨some token, slice, rest⟩) (nonempty : slice ≠ [])
    (stepped : builder.step token (1 + before.count '\n') = .ok next) :
    runFrom builder before (slice ++ rest) = runFrom next (before ++ slice) rest := by
  have scanned : scanFrom (byteLength before) (slice ++ rest) =
      ⟨token, byteLength before, byteLength (before ++ slice)⟩ :: scanFrom (byteLength (before ++ slice)) rest := by
    rw [scanFrom_cut isCut nonempty, byteLength_append]
    rfl
  rw [runFrom, runFrom, scanned, Builder.run, lineAt_behind, stepped, List.append_assoc]

/-- The text in front of a tag is added to the innermost open element. -/
theorem run_text (inner : OpenElement) (outer : List OpenElement) (before pending after : List Char) :
    runFrom ⟨inner :: outer, none⟩ before (escaped pending ++ '<' :: after) =
      runFrom ⟨{ inner with text := inner.text ++ String.ofList pending } :: outer, none⟩
        (before ++ escaped pending) ('<' :: after) := by
  by_cases empty : pending = []
  · subst empty
    simp [escaped]
  · refine run_token _ before (cut_escaped empty after) ?_ rfl
    obtain ⟨c, tail, rfl⟩ := List.exists_cons_of_ne_nil empty
    simp [escaped, (escapedChar_plain c).1]

/-- An element with all that is inside it, just before it is closed. -/
def gathered (before : List Char) (name : TagName) (items : List Item) : OpenElement where
  qualifiedName := name.text
  line := 1 + before.count '\n'
  text := Item.textsAll items
  children := (Item.elementsAll (before ++ startTag name) items).reverse

private theorem close_gathered (before : List Char) (name : TagName) (items : List Item) :
    (gathered before name items).close = (Node.mk name items).element before := by
  have unprefixed : localName name.text = name.text := by
    have plain : ∀ c ∈ name.chars.reverse, decide (c ≠ ':') = true := by
      intro c member
      rw [decide_eq_true_eq]
      rintro rfl
      exact name.not_mem (by decide) (List.mem_reverse.mp member)
    have whole : (name.chars.reverse ++ []).takeWhile (· ≠ ':') = name.chars.reverse ++ [] :=
      List.takeWhile_append_of_pos plain
    rw [List.append_nil] at whole
    rw [localName, TagName.text, String.toList_ofList, whole, List.reverse_reverse]
  simp [gathered, OpenElement.close, Node.element, unprefixed]

/-- Items are read into the element around them, together with the text pending in front of them. -/
def ReadInside (items : List Item) : Prop :=
  ∀ inner outer before pending after,
    runFrom ⟨inner :: outer, none⟩ before (escaped pending ++ (Item.markupAll items ++ '<' :: after)) =
      runFrom
        ⟨{ inner with
            text := inner.text ++ String.ofList pending ++ Item.textsAll items
            children := (Item.elementsAll (before ++ escaped pending) items).reverse ++ inner.children } :: outer,
          none⟩
        (before ++ escaped pending ++ Item.markupAll items) ('<' :: after)

/-- A tree is read and handed to the element around it, once what is inside it is read. -/
theorem run_node (inside : ReadInside items) (name : TagName) (outer : List OpenElement)
    (before after : List Char) :
    runFrom ⟨outer, none⟩ before ((Node.mk name items).markup ++ after) =
      runFrom (Builder.finish (gathered before name items) outer none)
        (before ++ (Node.mk name items).markup) after := by
  cases items with
  | nil =>
    have written : (Node.mk name []).markup = emptyTag name := by simp [Node.markup]
    rw [written]
    refine run_token _ before (cut_emptyTag name after) (by simp [emptyTag]) ?_
    simp [Builder.step, gathered, Item.textsAll, Item.elementsAll]
  | cons first rest =>
    have written : (Node.mk name (first :: rest)).markup =
        startTag name ++ (Item.markupAll (first :: rest) ++ endTag name) := by
      simp [Node.markup]
    have opened := run_token ⟨outer, none⟩ before
      (cut_startTag name (Item.markupAll (first :: rest) ++ (endTag name ++ after)))
      (by simp [startTag]) rfl
    have filled := inside { qualifiedName := name.text, line := 1 + before.count '\n' } outer
      (before ++ startTag name) [] ('/' :: (name.chars ++ '>' :: after))
    have closed := run_token ⟨gathered before name (first :: rest) :: outer, none⟩
      (before ++ startTag name ++ Item.markupAll (first :: rest)) (cut_endTag name after)
      (by simp [endTag]) (if_pos rfl)
    have tail : '<' :: '/' :: (name.chars ++ '>' :: after) = endTag name ++ after := by simp [endTag]
    simp only [tail, escaped, List.flatMap_nil, List.nil_append, List.append_nil, String.ofList_nil,
      String.append_empty, String.empty_append] at filled
    rw [written]
    simp only [List.append_assoc] at opened filled closed ⊢
    rw [opened, filled]
    exact closed

private theorem markup_begins (node : Node) : ∃ tail, node.markup = '<' :: tail := by
  obtain ⟨name, items⟩ := node
  rw [Node.markup]
  split
  · exact ⟨_, rfl⟩
  · exact ⟨_, rfl⟩

/-- Whatever is written inside an element is read back. -/
theorem readInside (items : List Item) : ReadInside items := by
  intro inner outer before pending after
  match items with
  | [] =>
    have read := run_text inner outer before pending after
    simpa [Item.markupAll, Item.textsAll, Item.elementsAll] using read
  | .text content :: rest =>
    have joined : escaped pending ++ escaped content.toList = escaped (pending ++ content.toList) := by
      simp [escaped]
    have read := readInside rest inner outer before (pending ++ content.toList) after
    rw [← joined] at read
    simpa [Item.markupAll, Item.markup, Item.textsAll, Item.texts, Item.elementsAll, Item.elements,
      String.append_assoc] using read
  | .node (.mk name items) :: rest =>
    -- The pending text ends at the start tag, and no text is pending behind the end tag.
    obtain ⟨tail, begins⟩ := markup_begins (.mk name items)
    have reached := run_text inner outer before pending (tail ++ (Item.markupAll rest ++ '<' :: after))
    rw [← List.cons_append, ← begins] at reached
    have read := run_node (readInside items) name
      ({ inner with text := inner.text ++ String.ofList pending } :: outer) (before ++ escaped pending)
      (Item.markupAll rest ++ '<' :: after)
    have behind := readInside rest
      { inner with
        text := inner.text ++ String.ofList pending ++ Item.textsAll items
        children := (Node.mk name items).element (before ++ escaped pending) :: inner.children }
      outer (before ++ escaped pending ++ (Node.mk name items).markup) [] after
    simp only [Builder.finish, close_gathered] at read
    simp only [Item.markupAll, Item.markup, List.append_assoc] at reached read behind ⊢
    rw [reached, read]
    simpa [escaped, gathered, Item.textsAll, Item.texts, Node.texts, Item.elementsAll, Item.elements, Item.markup,
      String.append_assoc] using behind

/-- **Markup reads back.** The markup of a tree is read as the tree of its elements: with their names and
children in order, with all texts below them as their values, and on the lines of their start tags. Of the texts the
value leaves out the blanks in front and behind, and nothing else. -/
theorem written_markup_reads_back (tree : Node) :
    Element.ofText (String.ofList tree.markup) = .ok (tree.element []) ∧
    ∀ text, ∃ front back, text.toList = front ++ (trimmed text).toList ++ back ∧
      (∀ c ∈ front, isBlank c) ∧ (∀ c ∈ back, isBlank c) ∧
      (∀ c, (trimmed text).toList.head? = some c → isBlank c = false) ∧
      ∀ c, (trimmed text).toList.getLast? = some c → isBlank c = false := by
  refine ⟨?_, fun text => ?_⟩
  swap
  · obtain ⟨front, back, parts, frontBlank, backBlank⟩ := trim_parts text.toList
    rw [trimmed, String.toList_ofList]
    exact ⟨front, back, parts, frontBlank, backBlank, trim_ends text.toList⟩
  obtain ⟨name, items⟩ := tree
  have read := run_node (readInside items) name [] [] []
  simp only [List.append_nil, List.nil_append] at read
  have ended : runFrom (Builder.finish (gathered [] name items) [] none) (Node.mk name items).markup [] =
      .ok ⟨[], some ((Node.mk name items).element [])⟩ := by
    rw [runFrom, scanFrom, Builder.run, Builder.finish, close_gathered]
  rw [ended, runFrom] at read
  simp only [List.nil_append, byteLength] at read
  rw [Element.ofText, scan, String.toList_ofList, read]
  rfl

end FormulaSheet.WrittenMarkup
