import Mathlib.Data.List.TakeWhile
import FormulaSheet.Proofs.LineNumbers

/-! Where the tokens of a text stand. Cutting a text piece by piece leaves nothing out and takes nothing twice, so the
spans of the tokens follow each other, and between them there is only what leaves no token: declarations, instructions
and comments, each up to its first bracket. What a piece is depends on how it begins; a run of characters is bounded in
front by the piece before it, which is why the text in front is carried along. -/
namespace FormulaSheet.TokenSpans
open Markup LineNumbers

/-! ## Tokens in their place -/

/-- What begins with an angle bracket and is read up to the next closing bracket. -/
inductive Begins : Opening → List Char → Prop where
  | startTag (letter : beginsName c) : Begins .startTag ('<' :: c :: rest)
  | endTag (inside : c ≠ '>') : Begins .endTag ('<' :: '/' :: c :: rest)
  | skipped (mark : c = '!' ∨ c = '?') : Begins .skipped ('<' :: c :: rest)

/-- From an angle bracket up to the first closing bracket behind it. -/
def Closed (slice : List Char) : Prop := ∃ inner, slice = '<' :: (inner ++ ['>']) ∧ '>' ∉ inner

/-- A run of characters may begin here: behind nothing, behind an angle bracket, or behind a complete construct. -/
def Resumes (before : List Char) : Prop :=
  before = [] ∨ (∃ front, before = front ++ ['<']) ∨
    ∃ front construct opening, before = front ++ construct ∧ Begins opening construct ∧ Closed construct

/-- Characters up to the next angle bracket, from the end of the piece in front. -/
structure MaximalRun (before slice after : List Char) : Prop where
  nonempty : slice ≠ []
  plain : '<' ∉ slice
  resumes : Resumes before
  stops : ∀ c ∈ after.head?, c = '<'

/-- A token fits the characters that it covers, with the text on both sides. -/
inductive Fits : Token → List Char → List Char → List Char → Prop where
  | startTag (begins : Begins .startTag slice) (closed : Closed slice) :
      Fits (.startTag name selfClosing) before slice after
  | endTag (begins : Begins .endTag slice) (closed : Closed slice) : Fits (.endTag name) before slice after
  | text (run : MaximalRun before slice after) (decoded : decode slice = some content.toList) :
      Fits (.text content) before slice after
  | lone (stray : ∀ opening, ¬ Begins opening ('<' :: after)) : Fits (.error "<") before ['<'] after
  | undecodable (run : MaximalRun before slice after) (refused : decode slice = none) :
      Fits (.error (String.ofList slice)) before slice after
  | unterminated (begins : Begins opening slice) (unclosed : '>' ∉ slice) :
      Fits (.error (String.ofList slice)) before slice []

/-- The span of a token covers characters that the token fits. -/
def Placed (text : List Char) (lexeme : Lexeme) : Prop :=
  ∃ before slice after, text = before ++ slice ++ after ∧ lexeme.start = byteLength before ∧
    lexeme.stop = byteLength (before ++ slice) ∧ Fits lexeme.token before slice after

/-- The stretches in front of, between and behind the spans of tokens. -/
def gaps (start : Nat) (lexemes : List Lexeme) (stop : Nat) : List (Nat × Nat) :=
  match lexemes with
  | [] => [(start, stop)]
  | lexeme :: later => (start, lexeme.start) :: gaps lexeme.stop later stop

/-- A complete construct that leaves no token. -/
def Skipped (slice : List Char) : Prop := Begins .skipped slice ∧ Closed slice

/-- A stretch is made of complete constructs that leave no token. -/
def SkippedOnly (text : List Char) (gap : Nat × Nat) : Prop :=
  ∃ before, ∃ constructs : List (List Char), ∃ after, text = before ++ constructs.flatten ++ after ∧
    gap.1 = byteLength before ∧ gap.2 = byteLength (before ++ constructs.flatten) ∧ ∀ slice ∈ constructs, Skipped slice

/-! ## Pieces -/

theorem scanFrom_cut (isCut : cut (slice ++ rest) = ⟨token, slice, rest⟩) (nonempty : slice ≠ []) (offset : Nat) :
    scanFrom offset (slice ++ rest) =
      (token.map (⟨·, offset, offset + byteLength slice⟩)).toList ++ scanFrom (offset + byteLength slice) rest := by
  obtain ⟨c, tail, shape⟩ := List.exists_cons_of_ne_nil (List.append_ne_nil_of_left_ne_nil nonempty rest)
  rw [shape] at isCut ⊢
  rw [scanFrom, isCut]
  cases token with
  | none => rfl
  | some token => rfl

/-- Induction on the pieces of a text, from its end. -/
theorem pieces_induction {motive : List Char → Prop} (nil : motive [])
    (piece : ∀ {token slice rest}, cut (slice ++ rest) = ⟨token, slice, rest⟩ → slice ≠ [] → motive rest →
      motive (slice ++ rest)) (cs : List Char) : motive cs := by
  induction size : cs.length using Nat.strong_induction_on generalizing cs with
  | _ size ih =>
    subst size
    by_cases empty : cs = []
    · exact empty ▸ nil
    · have whole := cut_append cs
      have isCut : cut ((cut cs).slice ++ (cut cs).rest) = ⟨(cut cs).token, (cut cs).slice, (cut cs).rest⟩ := by rw [whole]
      rw [← whole]
      exact piece isCut (cut_slice_ne_nil empty) (ih _ (cut_rest_length empty) _ rfl)

theorem opening_of_begins (begins : Begins opening cs) : Opening.of cs = opening := by
  cases begins with
  | @startTag c rest letter =>
    have noSlash : c ≠ '/' := by
      rintro rfl
      exact absurd letter (by decide)
    unfold Opening.of
    split <;> simp_all
  | endTag inside => simp [Opening.of, inside]
  | skipped mark =>
    rcases mark with rfl | rfl
    · rfl
    · rfl

/-- An angle bracket begins a construct or nothing. -/
theorem begins_of_bracket (bracket : cs = '<' :: rest) : Opening.of cs = .stray ∨ Begins (Opening.of cs) cs := by
  unfold Opening.of
  split
  · split
    · exact .inl rfl
    · rename_i inside
      exact .inr (.endTag inside)
  · split
    · rename_i letter
      exact .inr (.startTag letter)
    · split
      · rename_i mark
        exact .inr (.skipped mark.symm)
      · exact .inl rfl
  · exact .inl rfl
  · rename_i longer single
    cases rest with
    | nil => exact absurd bracket single
    | cons c tail => exact absurd bracket (longer c tail)

theorem bracket_of_opening (kind : Opening.of cs ≠ .characters) : ∃ rest, cs = '<' :: rest := by
  by_contra plain
  apply kind
  unfold Opening.of
  split <;> simp_all

theorem splitAngle?_plain {inner : List Char} (rest : List Char) (plain : '>' ∉ inner) :
    splitAngle? (inner ++ '>' :: rest) = some (inner ++ ['>'], rest) := by
  induction inner with
  | nil => simp [splitAngle?]
  | cons c inner ih =>
    obtain ⟨different, plainRest⟩ := not_or.mp (mt List.mem_cons.mpr plain)
    rw [List.cons_append, splitAngle?, if_neg (Ne.symm different), ih plainRest]
    rfl

theorem splitAngle?_closed (found : splitAngle? cs = some (slice, rest)) :
    ∃ inner, slice = inner ++ ['>'] ∧ '>' ∉ inner := by
  induction cs generalizing slice with
  | nil => cases found
  | cons c cs ih =>
    rw [splitAngle?] at found
    split at found
    · rename_i bracket
      cases found
      exact ⟨[], by simp [bracket], by simp⟩
    · rename_i plain
      obtain ⟨⟨tail, behind⟩, deeper, same⟩ := Option.map_eq_some_iff.mp found
      cases same
      obtain ⟨inner, rfl, outside⟩ := ih deeper
      exact ⟨c :: inner, rfl, List.not_mem_cons_of_ne_of_not_mem (Ne.symm plain) outside⟩

private theorem splitAngle?_missing (missing : splitAngle? cs = none) : '>' ∉ cs := by
  induction cs with
  | nil => exact List.not_mem_nil
  | cons c cs ih =>
    rw [splitAngle?] at missing
    split at missing
    · cases missing
    · rename_i plain
      exact List.not_mem_cons_of_ne_of_not_mem (Ne.symm plain) (ih (Option.map_eq_none_iff.mp missing))

private theorem bracket_of_begins (begins : Begins opening cs) : ∃ rest, cs = '<' :: rest := by
  cases begins with
  | startTag | endTag | skipped => exact ⟨_, rfl⟩

private theorem begins_front {inner : List Char} (begins : Begins opening ('<' :: (inner ++ '>' :: rest))) :
    Begins opening ('<' :: (inner ++ ['>'])) := by
  -- A construct is known by at most two characters behind its bracket.
  rcases inner with _ | ⟨a, _ | ⟨b, inner⟩⟩ <;> cases begins <;> constructor <;> assumption

/-- A construct that is read up to a closing bracket begins in front of that bracket. -/
theorem begins_closed {inner : List Char} (begins : Begins opening (inner ++ '>' :: rest)) (outside : '>' ∉ inner) :
    Begins opening (inner ++ ['>']) ∧ Closed (inner ++ ['>']) := by
  obtain ⟨behind, bracket⟩ := bracket_of_begins begins
  cases inner with
  | nil => simp at bracket
  | cons first inner =>
    obtain rfl := (List.cons.inj bracket).1
    exact ⟨begins_front begins, inner, rfl, List.not_mem_of_not_mem_cons outside⟩

/-- All that can be cut off a text. -/
inductive Outcome : Option Token → List Char → List Char → Prop where
  | characters (plain : '<' ∉ slice) (stops : ∀ c ∈ rest.head?, c = '<') : Outcome (some (textToken slice)) slice rest
  | stray (nothing : ∀ opening, ¬ Begins opening ('<' :: rest)) : Outcome (some (.error "<")) ['<'] rest
  | construct (begins : Begins opening slice) (closed : Closed slice) : Outcome (constructToken opening slice) slice rest
  | unterminated (begins : Begins opening slice) (unclosed : '>' ∉ slice) :
      Outcome (some (.error (String.ofList slice))) slice []

private theorem outcome_closed (begins : Begins opening cs) (found : splitAngle? cs = some (slice, rest)) :
    Outcome (constructToken opening slice) slice rest := by
  have whole := splitAngle?_append found
  obtain ⟨inner, rfl, outside⟩ := splitAngle?_closed found
  rw [whole, List.append_assoc] at begins
  obtain ⟨beginsFront, closed⟩ := begins_closed begins outside
  exact .construct beginsFront closed

private theorem outcome_cut (cs : List Char) : Outcome (cut cs).token (cut cs).slice (cut cs).rest := by
  by_cases kind : Opening.of cs = .characters
  · rw [cut, kind]
    apply Outcome.characters
    · intro member
      simpa using List.mem_takeWhile_imp member
    · intro c first
      have stopped := List.head?_dropWhile_not (· ≠ '<') cs
      simp_all
  · obtain ⟨rest, rfl⟩ := bracket_of_opening kind
    rcases begins_of_bracket (rfl : '<' :: rest = _) with stray | begins
    · have isCut : cut ('<' :: rest) = ⟨some (.error "<"), ['<'], rest⟩ := by
        rw [cut, stray]
        rfl
      rw [isCut]
      apply Outcome.stray
      intro opening begins
      rw [opening_of_begins begins] at stray
      rw [stray] at begins
      cases begins
    · unfold cut
      generalize Opening.of ('<' :: rest) = opening at begins
      cases opening with
      | characters | stray => cases begins
      | startTag | endTag | skipped =>
        dsimp only
        split
        · rename_i found
          exact outcome_closed begins found
        · rename_i missing
          exact .unterminated begins (splitAngle?_missing missing)

/-! ## Pieces in their place -/

/-- A run of characters may begin here, if none has just ended. -/
def Ready (before rest : List Char) : Prop := Resumes before ∨ ∀ c ∈ rest.head?, c = '<'

private theorem ready_behind (outcome : Outcome token slice rest) (before : List Char) : Ready
    (before ++ slice) rest := by
  cases outcome with
  | characters plain stops => exact .inr stops
  | stray nothing => exact .inl (.inr (.inl ⟨before, rfl⟩))
  | construct begins closed => exact .inl (.inr (.inr ⟨before, slice, _, rfl, begins, closed⟩))
  | unterminated begins unclosed => exact .inr (by simp)

private theorem run_of_ready (ready : Ready before (slice ++ rest)) (nonempty : slice ≠ []) (plain : '<' ∉ slice)
    (stops : ∀ c ∈ rest.head?, c = '<') : MaximalRun before slice rest := by
  refine ⟨nonempty, plain, ready.resolve_right ?_, stops⟩
  intro bracket
  obtain ⟨first, tail, rfl⟩ := List.exists_cons_of_ne_nil nonempty
  exact List.ne_of_not_mem_cons plain (bracket first rfl).symm

private theorem fits_textToken (run : MaximalRun before slice rest) : Fits (textToken slice) before slice rest := by
  unfold textToken
  split
  · rename_i content decoded
    exact .text run (by rw [decoded, String.toList_ofList])
  · rename_i refused
    exact .undecodable run refused

/-- A piece that leaves a token is one that the token fits. -/
theorem fits_of_outcome (outcome : Outcome (some token) slice rest) (nonempty : slice ≠ [])
    (ready : Ready before (slice ++ rest)) : Fits token before slice rest := by
  generalize left : some token = result at outcome
  cases outcome with
  | characters plain stops =>
    cases left
    exact fits_textToken (run_of_ready ready nonempty plain stops)
  | stray nothing =>
    cases left
    exact .lone nothing
  | @construct opening _ _ begins closed =>
    cases opening with
    | startTag =>
      cases left
      exact .startTag begins closed
    | endTag =>
      cases left
      exact .endTag begins closed
    | skipped | characters | stray => cases left
  | unterminated begins unclosed =>
    cases left
    exact .unterminated begins unclosed

/-- A piece that leaves no token is a complete construct to be skipped. -/
theorem skipped_of_outcome (outcome : Outcome none slice rest) : Skipped slice := by
  generalize left : none = result at outcome
  cases outcome with
  | characters | stray | unterminated => cases left
  | @construct opening _ _ begins closed =>
    cases opening with
    | startTag | endTag => cases left
    | skipped => exact ⟨begins, closed⟩
    | characters | stray => cases begins

/-! ## Whole texts -/

/-- The tokens of a text, piece by piece: each stands where it fits, and between them something is skipped. -/
inductive Scanned : List Char → List Char → List Lexeme → Prop where
  | done : Scanned before [] []
  | token (fits : Fits token before slice rest) (nonempty : slice ≠ [])
      (later : Scanned (before ++ slice) rest lexemes) :
      Scanned before (slice ++ rest) (⟨token, byteLength before, byteLength (before ++ slice)⟩ :: lexemes)
  | skipped (construct : Skipped slice) (later : Scanned (before ++ slice) rest lexemes) :
      Scanned before (slice ++ rest) lexemes

private theorem scanned_scanFrom (cs : List Char) (ready : Ready before cs) :
    Scanned before cs (scanFrom (byteLength before) cs) := by
  induction cs using pieces_induction generalizing before with
  | nil =>
    rw [scanFrom]
    exact .done
  | @piece token slice rest isCut nonempty ih =>
    have outcome := outcome_cut (slice ++ rest)
    rw [isCut] at outcome
    have later := ih (ready_behind outcome before)
    rw [scanFrom_cut isCut nonempty, ← byteLength_append]
    cases token with
    | none => exact .skipped (skipped_of_outcome outcome) later
    | some token => exact .token (fits_of_outcome outcome nonempty ready) nonempty later

private theorem scanned_bounds (scanned : Scanned before rest lexemes) :
    ∀ lexeme ∈ lexemes, byteLength before ≤ lexeme.start ∧ lexeme.start < lexeme.stop ∧
      lexeme.stop ≤ byteLength (before ++ rest) := by
  induction scanned with
  | done => simp
  | @token token before slice rest lexemes fits nonempty later ih =>
    have size : 0 < byteLength slice := Nat.pos_of_ne_zero (mt byteLength_eq_zero.mp nonempty)
    simp only [byteLength_append] at ih ⊢
    intro lexeme member
    rcases List.mem_cons.mp member with rfl | member
    · dsimp only
      omega
    · have := ih lexeme member
      omega
  | skipped construct later ih =>
    simp only [byteLength_append] at ih ⊢
    intro lexeme member
    have := ih lexeme member
    omega

private theorem scanned_ordered (scanned : Scanned before rest lexemes) :
    lexemes.Pairwise fun one next => one.start < next.start ∧ one.stop ≤ next.start := by
  induction scanned with
  | done => exact .nil
  | @token token before slice rest lexemes fits nonempty later ih =>
    have size : 0 < byteLength slice := Nat.pos_of_ne_zero (mt byteLength_eq_zero.mp nonempty)
    refine List.pairwise_cons.mpr ⟨?_, ih⟩
    intro next member
    have := (scanned_bounds later next member).1
    rw [byteLength_append] at this ⊢
    dsimp only
    omega
  | skipped construct later ih => exact ih

private theorem scanned_placed (scanned : Scanned before rest lexemes) : ∀ lexeme ∈ lexemes, Placed
    (before ++ rest) lexeme := by
  induction scanned with
  | done => simp
  | @token token before slice rest lexemes fits nonempty later ih =>
    rw [List.append_assoc] at ih
    intro lexeme member
    rcases List.mem_cons.mp member with rfl | member
    · exact ⟨before, slice, rest, (List.append_assoc _ _ _).symm, rfl, rfl, fits⟩
    · exact ih lexeme member
  | skipped construct later ih =>
    rw [List.append_assoc] at ih
    exact ih

/-- What has been skipped since the last token is part of the next gap. -/
theorem scanned_gaps (scanned : Scanned before rest lexemes) (front : List Char) (constructs : List (List Char))
    (since : before = front ++ constructs.flatten) (skipped : ∀ slice ∈ constructs, Skipped slice) :
    ∀ gap ∈ gaps (byteLength front) lexemes (byteLength (before ++ rest)), SkippedOnly (before ++ rest) gap := by
  induction scanned generalizing front constructs with
  | done =>
    intro gap member
    obtain rfl := List.mem_singleton.mp member
    subst since
    exact ⟨front, constructs, [], rfl, rfl, by simp, skipped⟩
  | @token token before slice rest lexemes fits nonempty later ih =>
    intro gap member
    rcases List.mem_cons.mp member with rfl | member
    · subst since
      exact ⟨front, constructs, slice ++ rest, rfl, rfl, rfl, skipped⟩
    · have behind := ih (before ++ slice) [] (by simp) (by simp) gap
      rw [List.append_assoc] at behind
      exact behind member
  | @skipped slice before rest lexemes construct later ih =>
    have more : ∀ other ∈ constructs ++ [slice], Skipped other :=
      List.forall_mem_append.mpr ⟨skipped, by simpa using construct⟩
    have behind := ih front (constructs ++ [slice]) (by simp [since]) more
    rw [List.append_assoc] at behind
    exact behind

/-- **Tokens cover the text without gaps or overlaps.** Their spans are not empty, follow each other, and lie within the
text; each covers what its token fits, and every stretch between them is made of complete skipped constructs. -/
theorem tokens_cover_the_text (text : String) :
    (∀ lexeme ∈ scan text, lexeme.start < lexeme.stop ∧ lexeme.stop ≤ text.utf8ByteSize) ∧
    ((scan text).Pairwise fun one next => one.start < next.start ∧ one.stop ≤ next.start) ∧
    (∀ lexeme ∈ scan text, Placed text.toList lexeme) ∧
    ∀ gap ∈ gaps 0 (scan text) text.utf8ByteSize, SkippedOnly text.toList gap := by
  have scanned : Scanned [] text.toList (scan text) := scanned_scanFrom text.toList (.inl (.inl rfl))
  rw [← byteLength_toList]
  refine ⟨?_, scanned_ordered scanned, scanned_placed scanned, ?_⟩
  · intro lexeme member
    exact (scanned_bounds scanned lexeme member).2
  · exact scanned_gaps scanned [] [] rfl (by simp)

end FormulaSheet.TokenSpans
