import FormulaSheet.Markup.Reference
import FormulaSheet.Text.Blank

/-!
Tokens of markup. A text is cut at each `<` that begins a tag, a declaration or a comment and at
the first `>` behind it; what lies between is character data. Declarations, instructions and
comments leave no token, and what fits no pattern becomes an error token, so that the tokens and
the skipped pieces together make up the text.
-/

namespace FormulaSheet.Markup

inductive Token where
  | startTag (name : String) (selfClosing : Bool)
  | endTag (name : String)
  /-- Character data with its references decoded. -/
  | text (content : String)
  /-- A piece that fits no pattern, as it stands. -/
  | error (slice : String)
  deriving DecidableEq, Repr

/-- A token and the bytes it covers, the end excluded. -/
structure Lexeme where
  token : Token
  start : Nat
  stop : Nat
  deriving DecidableEq, Repr

/-- The length of a text in UTF-8. -/
def byteLength : List Char → Nat
  | [] => 0
  | c :: cs => c.utf8Size + byteLength cs

/-- Which kind of construct a text begins with. -/
inductive Opening where
  | startTag
  | endTag
  /-- A declaration, an instruction or a comment. -/
  | skipped
  | characters
  /-- A `<` that begins nothing. -/
  | stray
  deriving DecidableEq, Repr

/-- Whether a tag's name may begin with the character. -/
def beginsName (c : Char) : Bool := c.isAlpha || c = '_'

/-- The kind of construct that begins here. -/
def Opening.of : List Char → Opening
  | '<' :: '/' :: c :: _ => if c = '>' then .stray else .endTag
  | '<' :: c :: _ =>
    if beginsName c then .startTag
    else if c = '?' ∨ c = '!' then .skipped
    else .stray
  | '<' :: [] => .stray
  | _ => .characters

/-- The text up to and including the first `>`, and the text behind it. -/
def splitAngle? : List Char → Option (List Char × List Char)
  | [] => none
  | c :: cs =>
    if c = '>' then some ([c], cs)
    else (splitAngle? cs).map fun (inner, rest) => (c :: inner, rest)

/-- The two parts make up the text. -/
theorem splitAngle?_append {cs inner rest : List Char}
    (found : splitAngle? cs = some (inner, rest)) : cs = inner ++ rest := by
  induction cs generalizing inner with
  | nil => simp [splitAngle?] at found
  | cons c cs ih =>
    rw [splitAngle?] at found
    split at found
    · cases found
      rfl
    · obtain ⟨⟨inner', rest'⟩, deeper, same⟩ := Option.map_eq_some_iff.1 found
      cases same
      rw [ih deeper, List.cons_append]

/-- `tag_name`: the name at the beginning of a tag's inside. -/
def tagName (inside : List Char) : String :=
  String.ofList (inside.takeWhile fun c => !(Text.isBlank c || c = '/' || c = '>'))

/-- `start_tag` and `end_tag`: the token of a construct that ends at its `>`, if it has one. -/
def constructToken (opening : Opening) (slice : List Char) : Option Token :=
  match opening with
  | .startTag =>
    some (.startTag (tagName (slice.drop 1)) (slice.drop (slice.length - 2) = ['/', '>']))
  | .endTag => some (.endTag (tagName (Text.trimStart (slice.drop 2))))
  | _ => none

/-- `text`: the token of a run of character data. -/
def textToken (slice : List Char) : Token :=
  match decode slice with
  | some content => .text (String.ofList content)
  | none => .error (String.ofList slice)

/-- The first piece of a text: its token, if it leaves one, its characters, and the rest. -/
structure Piece where
  token : Option Token
  slice : List Char
  rest : List Char

/-- Cuts the first piece off a text. -/
def cut (cs : List Char) : Piece :=
  match Opening.of cs with
  | .characters =>
    let slice := cs.takeWhile (· ≠ '<')
    ⟨some (textToken slice), slice, cs.dropWhile (· ≠ '<')⟩
  | .stray => ⟨some (.error "<"), cs.take 1, cs.drop 1⟩
  | opening =>
    match splitAngle? cs with
    | some (slice, rest) => ⟨constructToken opening slice, slice, rest⟩
    | none => ⟨some (.error (String.ofList cs)), cs, []⟩

/-- A piece and the rest make up the text. -/
theorem cut_append (cs : List Char) : (cut cs).slice ++ (cut cs).rest = cs := by
  unfold cut
  split
  · exact List.takeWhile_append_dropWhile
  · exact List.take_append_drop 1 cs
  · split
    · next found => exact (splitAngle?_append found).symm
    · exact List.append_nil cs

/-- A piece of a text that is not empty is not empty. -/
theorem cut_slice_ne_nil {cs : List Char} (nonempty : cs ≠ []) : (cut cs).slice ≠ [] := by
  unfold cut
  split
  · next kind =>
    cases cs with
    | nil => exact absurd rfl nonempty
    | cons c cs =>
      have plain : c ≠ '<' := by
        rintro rfl
        cases cs <;> simp only [Opening.of] at kind <;> grind
      simp [plain]
  · cases cs with
    | nil => exact absurd rfl nonempty
    | cons c cs => simp
  · split
    · next found =>
      intro empty
      cases cs with
      | nil => exact nonempty rfl
      | cons c cs =>
        rw [splitAngle?] at found
        split at found
        · cases found
          simp at empty
        · obtain ⟨⟨inner', rest'⟩, _, same⟩ := Option.map_eq_some_iff.1 found
          cases same
          simp at empty
    · exact nonempty

/-- What is left after cutting a piece is shorter. -/
theorem cut_rest_length {cs : List Char} (nonempty : cs ≠ []) :
    (cut cs).rest.length < cs.length := by
  have whole := congrArg List.length (cut_append cs)
  have some := List.length_pos_iff.2 (cut_slice_ne_nil nonempty)
  rw [List.length_append] at whole
  omega

/-- The tokens of a text whose first character stands at byte `offset`. -/
def scanFrom (offset : Nat) (cs : List Char) : List Lexeme :=
  match cs with
  | [] => []
  | c :: tail =>
    let piece := cut (c :: tail)
    let stop := offset + byteLength piece.slice
    match piece.token with
    | some token => ⟨token, offset, stop⟩ :: scanFrom stop piece.rest
    | none => scanFrom stop piece.rest
termination_by cs.length
decreasing_by all_goals exact cut_rest_length (by simp)

/-- The tokens of a text, in order. -/
def scan (text : String) : List Lexeme := scanFrom 0 text.toList

end FormulaSheet.Markup
