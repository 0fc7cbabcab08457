import FormulaSheet.Proofs.DecimalLiterals
import FormulaSheet.Proofs.WrittenMarkup

/-! Comments in markup. A comment in front of a tag leaves no trace in the tree, as long as the comment ends at its first
bracket: the reader looks for that bracket and not for the end of a comment. What is inserted changes the offsets of all
that follows, so reading is described here without offsets, by the pieces of the text and the lines on which they
begin. -/
namespace FormulaSheet.SkippedComments
open Markup Text WrittenMarkup LineNumbers
open TokenSpans (bracket_of_opening pieces_induction scanFrom_cut splitAngle?_closed splitAngle?_plain)

/-- A comment around a body. -/
def comment (body : List Char) : List Char := '<' :: '!' :: '-' :: '-' :: (body ++ ['-', '-', '>'])

/-- The shortest markup that leaves no token. -/
def declaration : List Char := ['<', '!', '>']

def IsTag : Token → Prop
  | .startTag _ _ | .endTag _ => True
  | .text _ | .error _ => False

/-- A text is split directly in front of one of its tags. -/
def BeforeTag (before after : List Char) : Prop :=
  ∃ lexeme ∈ scan (String.ofList (before ++ after)), lexeme.start = byteLength before ∧ IsTag lexeme.token

/-! ## Reading by pieces -/

/-- Takes what a piece on `line` leaves: a token, or nothing. -/
def taken (builder : Builder) (line : Nat) : Option Token → Except Fault Builder
  | none => .ok builder
  | some token => builder.step token line

/-- Takes the pieces of a text whose first character stands on `line`. -/
def readFrom (builder : Builder) (line : Nat) (cs : List Char) : Except Fault Builder :=
  match cs with
  | [] => .ok builder
  | c :: tail =>
    let piece := cut (c :: tail)
    (taken builder line piece.token).bind fun next => readFrom next (line + piece.slice.count '\n') piece.rest
termination_by cs.length
decreasing_by exact cut_rest_length (by simp)

/-- The first piece is taken, and reading goes on behind it. -/
theorem readFrom_cut (isCut : cut (slice ++ rest) = ⟨token, slice, rest⟩) (nonempty : slice ≠ []) (builder : Builder)
    (line : Nat) :
    readFrom builder line (slice ++ rest) =
      (taken builder line token).bind fun next => readFrom next (line + slice.count '\n') rest := by
  obtain ⟨c, tail, shape⟩ := List.exists_cons_of_ne_nil (List.append_ne_nil_of_left_ne_nil nonempty rest)
  rw [shape] at isCut ⊢
  rw [readFrom, isCut]

/-- The line on which a piece begins is the line of its offset. -/
theorem runFrom_eq (builder : Builder) (before cs : List Char) :
    runFrom builder before cs = readFrom builder (1 + before.count '\n') cs := by
  induction cs using pieces_induction generalizing builder before with
  | nil => rw [runFrom, scanFrom, Builder.run, readFrom]
  | @piece token slice rest isCut nonempty ih =>
    have later (next : Builder) : Builder.run (LineTable.ofText (String.ofList (before ++ (slice ++ rest)))) next
        (scanFrom (byteLength before + byteLength slice) rest) =
          readFrom next (1 + before.count '\n' + slice.count '\n') rest := by
      have behind := ih next (before ++ slice)
      rwa [runFrom, byteLength_append, List.append_assoc, List.count_append, ← Nat.add_assoc] at behind
    rw [readFrom_cut isCut nonempty, runFrom, scanFrom_cut isCut nonempty]
    cases token with
    | none => exact later builder
    | some token =>
      change Builder.run _ builder (⟨token, byteLength before, _⟩ :: _) = _
      rw [Builder.run, lineAt_behind]
      cases stepped : builder.step token (1 + before.count '\n') with
      | error fault => simp [taken, stepped, Except.bind]
      | ok next => simpa [taken, stepped, Except.bind] using later next

private theorem ofText_eq (cs : List Char) :
    Element.ofText (String.ofList cs) = (readFrom {} 1 cs).bind Builder.result := by
  have read := runFrom_eq {} [] cs
  simp only [runFrom, List.nil_append, byteLength, List.count_nil, Nat.add_zero] at read
  rw [Element.ofText, scan, String.toList_ofList, read]
  cases readFrom {} 1 cs with
  | ok builder => rfl
  | error fault => rfl

/-! ## Places between pieces -/

/-- Cutting piece by piece comes to the place between two parts of a text. -/
inductive Reached : List Char → List Char → Prop where
  | here : Reached [] after
  | behind (isCut : cut (slice ++ (before ++ after)) = ⟨token, slice, before ++ after⟩) (nonempty : slice ≠ [])
      (later : Reached before after) : Reached (slice ++ before) after

/-- A token of a text belongs to its first piece or stands behind it. -/
theorem mem_scanFrom_cut (isCut : cut (slice ++ rest) = ⟨token, slice, rest⟩) (nonempty : slice ≠ []) (offset : Nat)
    (member : lexeme ∈ scanFrom offset (slice ++ rest)) :
    (token = some lexeme.token ∧ lexeme.start = offset) ∨ lexeme ∈ scanFrom (offset + byteLength slice) rest := by
  rw [scanFrom_cut isCut nonempty, List.mem_append] at member
  refine member.imp_left fun first => ?_
  obtain ⟨own, found, rfl⟩ := Option.map_eq_some_iff.mp (Option.mem_toList.mp first)
  exact ⟨found, rfl⟩

private theorem le_start (offset : Nat) (cs : List Char) : ∀ lexeme ∈ scanFrom offset cs, offset ≤ lexeme.start := by
  induction cs using pieces_induction generalizing offset with
  | nil => simp [scanFrom]
  | piece isCut nonempty ih =>
    intro lexeme member
    rcases mem_scanFrom_cut isCut nonempty offset member with ⟨-, start⟩ | later
    · exact Nat.le_of_eq start.symm
    · exact Nat.le_trans (Nat.le_add_right _ _) (ih _ lexeme later)

/-- Of two ways to split a text, the one with fewer bytes in front comes first. -/
theorem split_behind {front back before after : List Char} (same : front ++ back = before ++ after)
    (less : byteLength front ≤ byteLength before) : ∃ between, before = front ++ between ∧ back = between ++ after := by
  rcases List.append_eq_append_iff.mp same with ⟨between, rfl, rfl⟩ | ⟨between, rfl, rfl⟩
  · exact ⟨between, rfl, rfl⟩
  · rw [byteLength_append] at less
    obtain rfl : between = [] := byteLength_eq_zero.mp (by omega)
    exact ⟨[], by simp, by simp⟩

/-- Where a token begins, a piece begins. -/
theorem reached_of_token (cs : List Char) (whole : cs = before ++ after)
    (member : lexeme ∈ scanFrom offset cs) (start : lexeme.start = offset + byteLength before) :
    Reached before after ∧ (cut after).token = some lexeme.token := by
  induction cs using pieces_induction generalizing offset before with
  | nil => simp [scanFrom] at member
  | @piece token slice rest isCut nonempty ih =>
    rcases mem_scanFrom_cut isCut nonempty offset member with ⟨found, first⟩ | later
    · obtain rfl : before = [] := byteLength_eq_zero.mp (by omega)
      rw [List.nil_append] at whole
      exact ⟨.here, by rw [← whole, isCut, found]⟩
    · have beyond := le_start _ _ lexeme later
      obtain ⟨between, rfl, rfl⟩ := split_behind whole (by omega)
      rw [byteLength_append] at start
      obtain ⟨reached, token⟩ := ih rfl later (by omega)
      exact ⟨.behind isCut nonempty reached, token⟩

/-- Only what begins with an angle bracket is a tag. -/
theorem begins_of_tag (found : (cut cs).token = some token) (tag : IsTag token) : ∃ tail, cs = '<' :: tail := by
  apply bracket_of_opening
  intro kind
  rw [cut, kind] at found
  cases found
  unfold textToken at tag
  split at tag <;> exact tag

/-! ## What stands behind a bracket -/

private theorem opening_of_three (a b c : Char) (rest : List Char) : Opening.of
    (a :: b :: c :: rest) = Opening.of [a, b, c] := by
  by_cases bracket : a = '<'
  · by_cases slash : b = '/' <;> simp [Opening.of, bracket, slash]
  · simp [Opening.of, bracket]

/-- The kind of a construct does not depend on what follows a bracket behind its beginning. -/
theorem opening_of_front (back other : List Char) (nonempty : front ≠ []) :
    Opening.of (front ++ '<' :: back) = Opening.of (front ++ '<' :: other) := by
  rcases front with _ | ⟨a, _ | ⟨b, _ | ⟨c, front⟩⟩⟩
  · exact absurd rfl nonempty
  · by_cases bracket : a = '<'
    · subst bracket
      rfl
    · simp [Opening.of, bracket]
  · exact (opening_of_three a b '<' back).trans (opening_of_three a b '<' other).symm
  · exact (opening_of_three a b c _).trans (opening_of_three a b c _).symm

private theorem splitAngle?_front (found : splitAngle? cs = some (slice, rest)) (other : List Char) :
    splitAngle? (slice ++ other) = some (slice, other) := by
  obtain ⟨inner, rfl, outside⟩ := splitAngle?_closed found
  rw [← List.append_cons]
  exact splitAngle?_plain other outside

/-- Characters in front of a bracket are the same whatever follows the bracket. -/
theorem span_front (taken : (slice ++ (middle ++ '<' :: back)).takeWhile (· ≠ '<') = slice) (other : List Char) :
    (slice ++ (middle ++ '<' :: other)).takeWhile (· ≠ '<') = slice ∧
      (slice ++ (middle ++ '<' :: other)).dropWhile (· ≠ '<') = middle ++ '<' :: other := by
  have plain : ∀ c ∈ slice, decide (c ≠ '<') = true := by
    intro c member
    rw [← taken] at member
    exact (List.mem_takeWhile_imp member :)
  apply DecimalLiterals.span_append plain
  cases middle with
  | nil => simp
  | cons d middle =>
    have dropped : (slice ++ (d :: middle ++ '<' :: back)).dropWhile (· ≠ '<') = d :: middle ++ '<' :: back := by
      have whole := List.takeWhile_append_dropWhile (p := (· ≠ '<')) (l := slice ++ (d :: middle ++ '<' :: back))
      rw [taken] at whole
      exact List.append_cancel_left whole
    have stops := List.head?_dropWhile_not (· ≠ '<') (slice ++ (d :: middle ++ '<' :: back))
    rw [dropped] at stops
    simpa using stops

/-- A piece is cut off in front of a bracket, or of other pieces in front of a bracket, whatever follows that. -/
theorem cut_front (isCut : cut (slice ++ (middle ++ '<' :: back)) = ⟨token, slice, middle ++ '<' :: back⟩)
    (nonempty : slice ≠ []) (other : List Char) :
    cut (slice ++ (middle ++ '<' :: other)) = ⟨token, slice, middle ++ '<' :: other⟩ := by
  have kind := opening_of_front other back (List.append_ne_nil_of_left_ne_nil nonempty middle)
  simp only [List.append_assoc] at kind
  rw [cut] at isCut ⊢
  rw [kind]
  generalize Opening.of (slice ++ (middle ++ '<' :: back)) = opening at isCut
  cases opening with
  | characters =>
    injection isCut with token taken dropped
    obtain ⟨taken', dropped'⟩ := span_front taken other
    rw [taken] at token
    simp only [taken', dropped', token]
  | stray =>
    injection isCut with token taken dropped
    obtain ⟨first, slice, rfl⟩ := List.exists_cons_of_ne_nil nonempty
    obtain rfl : slice = [] := by simpa using taken
    simp [token]
  | startTag | endTag | skipped =>
    dsimp only at isCut ⊢
    split at isCut
    · rename_i found
      injection isCut with token same behind
      subst same behind
      simp only [splitAngle?_front found, token]
    · injection isCut with token same behind
      simp at behind

/-- Two ways to go on from a place in front of a bracket that are read alike are read alike from further in front. -/
theorem readFrom_congr (reached : Reached before after) (begins : after = '<' :: back)
    (same : ∀ builder line, readFrom builder line ('<' :: one) = readFrom builder line ('<' :: other))
    (builder : Builder) (line : Nat) :
    readFrom builder line (before ++ '<' :: one) = readFrom builder line (before ++ '<' :: other) := by
  induction reached generalizing builder line with
  | here => exact same builder line
  | behind isCut nonempty later ih =>
    subst begins
    rw [List.append_assoc, List.append_assoc, readFrom_cut (cut_front isCut nonempty one) nonempty,
      readFrom_cut (cut_front isCut nonempty other) nonempty]
    congr 1
    funext next
    exact ih rfl next _

/-- What begins as a declaration is skipped up to its first bracket. -/
theorem readFrom_skipped {inner : List Char} (plain : '>' ∉ inner) (oneLine : '\n' ∉ inner) (builder : Builder)
    (line : Nat) (rest : List Char) :
    readFrom builder line ('<' :: '!' :: (inner ++ '>' :: rest)) = readFrom builder line rest := by
  have isCut := cut_construct (show Opening.of ('<' :: '!' :: inner ++ '>' :: rest) = .skipped from rfl) (by simp)
    (show '>' ∉ '<' :: '!' :: inner by simp [plain])
  rw [List.append_cons] at isCut
  have read := readFrom_cut isCut (by simp) builder line
  have height : ('<' :: '!' :: inner ++ ['>']).count '\n' = 0 := List.count_eq_zero.mpr (by simp [oneLine])
  rw [height, ← List.append_cons] at read
  exact read

/-! ## Comments in front of a tag -/

/-- The body of a comment in the sense of XML, on one line. -/
structure CommentBody (body : List Char) : Prop where
  noDashes : ¬ ['-', '-'] <:+: body
  noDashLast : body.getLast? ≠ some '-'
  oneLine : '\n' ∉ body

private theorem readFrom_comment (plain : '>' ∉ body) (oneLine : '\n' ∉ body) (builder : Builder) (line : Nat)
    (rest : List Char) : readFrom builder line (comment body ++ rest) = readFrom builder line rest := by
  have skipped := readFrom_skipped (show '>' ∉ '-' :: '-' :: (body ++ ['-', '-']) by simp [plain])
    (by simp [oneLine]) builder line rest
  simpa [comment] using skipped

/-- A comment whose body has a bracket is read like a declaration and what the comment has behind that bracket. -/
theorem readFrom_broken_comment {hidden : List Char} (plain : '>' ∉ hidden) (oneLine : '\n' ∉ hidden) (builder : Builder)
    (line : Nat) (shown rest : List Char) :
    readFrom builder line (comment (hidden ++ '>' :: shown) ++ rest) =
      readFrom builder line (declaration ++ (shown ++ ['-', '-', '>'] ++ rest)) := by
  have skipped := readFrom_skipped (show '>' ∉ '-' :: '-' :: hidden by simp [plain]) (by simp [oneLine]) builder line
    (shown ++ ['-', '-', '>'] ++ rest)
  have empty := readFrom_skipped (List.not_mem_nil (a := '>')) List.not_mem_nil builder line
    (shown ++ ['-', '-', '>'] ++ rest)
  rw [← empty] at skipped
  simpa [comment, declaration] using skipped

/-- **A comment ends at its first closing bracket.** In front of a tag, a comment without such a bracket in its body
leaves no trace: the tree, with its lines, is that of the text without the comment, and a text that is refused is refused
alike. With one, what stands behind it is read as markup, as it is behind any declaration. -/
theorem comment_ends_at_first_bracket (place : BeforeTag before after) (oneLine : '\n' ∉ body) :
    ('>' ∉ body → Element.ofText (String.ofList (before ++ (comment body ++ after))) =
      Element.ofText (String.ofList (before ++ after))) ∧
    ∀ hidden shown, body = hidden ++ '>' :: shown → '>' ∉ hidden →
      Element.ofText (String.ofList (before ++ (comment body ++ after))) =
        Element.ofText (String.ofList (before ++ (declaration ++ (shown ++ ['-', '-', '>'] ++ after)))) := by
  obtain ⟨lexeme, member, start, tag⟩ := place
  rw [scan, String.toList_ofList] at member
  obtain ⟨reached, token⟩ := reached_of_token _ rfl member (by rw [start, Nat.zero_add])
  obtain ⟨back, begins⟩ := begins_of_tag token tag
  simp only [ofText_eq]
  constructor
  · intro plain
    have invisible (builder : Builder) (line : Nat) := readFrom_comment plain oneLine builder line after
    rw [begins] at invisible ⊢
    exact congrArg (Except.bind · Builder.result) (readFrom_congr reached begins invisible {} 1)
  · rintro hidden shown rfl plain
    have broken (builder : Builder) (line : Nat) := readFrom_broken_comment plain
      (fun newline => oneLine (List.mem_append_left _ newline)) builder line shown after
    exact congrArg (Except.bind · Builder.result) (readFrom_congr reached begins broken {} 1)

/-- A comment on the second line leaves the tree and its lines as they are. -/
theorem comment_on_second_line_is_unseen :
    BeforeTag "<a>\n".toList "<b/></a>".toList ∧
      Element.ofText (String.ofList ("<a>\n".toList ++ (comment "note".toList ++ "<b/></a>".toList))) =
        .ok ⟨"a", "", 1, [⟨"b", "", 2, []⟩]⟩ := by
  have tokens : scan (String.ofList ("<a>\n".toList ++ "<b/></a>".toList)) =
      [⟨.startTag "a" false, 0, 3⟩, ⟨.text "\n", 3, 4⟩, ⟨.startTag "b" true, 4, 8⟩, ⟨.endTag "a", 8, 12⟩] := by cbv
  have bare : Element.ofText (String.ofList ("<a>\n".toList ++ "<b/></a>".toList)) =
      .ok ⟨"a", "", 1, [⟨"b", "", 2, []⟩]⟩ := by cbv
  have place : BeforeTag "<a>\n".toList "<b/></a>".toList := by
    refine ⟨⟨.startTag "b" true, 4, 8⟩, ?_, rfl, trivial⟩
    rw [tokens]
    simp
  have unseen := (comment_ends_at_first_bracket place (show '\n' ∉ "note".toList by decide)).1 (by decide)
  exact ⟨place, unseen.trans bare⟩

/-- The body of a comment may hold a closing bracket, and then the rest of the comment is text of the element. -/
theorem bracket_in_comment_shows_its_rest :
    CommentBody "a>b".toList ∧ BeforeTag "<mi>x".toList "</mi>".toList ∧
      Element.ofText (String.ofList ("<mi>x".toList ++ "</mi>".toList)) = .ok ⟨"mi", "x", 1, []⟩ ∧
      Element.ofText (String.ofList ("<mi>x".toList ++ (comment "a>b".toList ++ "</mi>".toList))) =
        .ok ⟨"mi", "xb-->", 1, []⟩ := by
  have tokens : scan (String.ofList ("<mi>x".toList ++ "</mi>".toList)) =
      [⟨.startTag "mi" false, 0, 4⟩, ⟨.text "x", 4, 5⟩, ⟨.endTag "mi", 5, 10⟩] := by cbv
  have place : BeforeTag "<mi>x".toList "</mi>".toList := by
    refine ⟨⟨.endTag "mi", 5, 10⟩, ?_, rfl, trivial⟩
    rw [tokens]
    simp
  exact ⟨⟨by decide, by decide, by decide⟩, place, by cbv, by cbv⟩

end FormulaSheet.SkippedComments
