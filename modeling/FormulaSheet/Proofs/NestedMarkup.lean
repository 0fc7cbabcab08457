import Mathlib.Data.List.Induction
import Mathlib.Tactic.ByContra
import FormulaSheet.Markup.Element

/-! Which markup is accepted. A text has a root element exactly if its tokens are well nested, which is said here of
the tokens alone: which elements are open behind the tokens in front of a place, and what may then stand there. The
reader goes over the tokens once and keeps only its open elements and the root; what it has seen is recovered from
these two. -/
namespace FormulaSheet.NestedMarkup
open Markup

/-! ## Well-nested tokens -/

/-- The elements that are open behind a token: a start tag opens one, an end tag closes the innermost, whatever its
name. -/
def openBehind (opened : List String) : Token → List String
  | .startTag name false => name :: opened
  | .endTag _ => opened.tail
  | .startTag _ true | .text _ | .error _ => opened

/-- The names of the elements that tokens leave open, innermost first. -/
def leftOpen (tokens : List Token) : List String := tokens.foldl openBehind []

/-- A start tag follows the tokens in front, and no element is open there. -/
def OpensRoot (tokens before : List Token) : Prop :=
  ∃ name selfClosing after, tokens = before ++ .startTag name selfClosing :: after ∧ leftOpen before = []

/-- Tokens without an error that hold one element outside of all others, close each element before the one around it,
leave nothing open, and have no text but blanks outside of the root. -/
structure WellNested (tokens : List Token) : Prop where
  noError : ∀ slice, .error slice ∉ tokens
  oneRoot : ∃! before, OpensRoot tokens before
  matched : ∀ before name after, tokens = before ++ .endTag name :: after → (leftOpen before).head? = some name
  closed : leftOpen tokens = []
  blankOutside : ∀ before content after, tokens = before ++ .text content :: after → leftOpen before = [] →
    content.toList.all Text.isBlank

/-- Some tag opens an element. -/
def HasElement (tokens : List Token) : Prop := ∃ name selfClosing, .startTag name selfClosing ∈ tokens

/-- Nothing but blank text. -/
def OnlyBlank (tokens : List Token) : Prop :=
  ∀ token ∈ tokens, ∃ content, token = .text content ∧ content.toList.all Text.isBlank

/-- Which token may follow others. -/
def Fits (before : List Token) : Token → Prop
  | .startTag _ _ => leftOpen before = [] → ¬ HasElement before
  | .endTag name => (leftOpen before).head? = some name
  | .text content => leftOpen before = [] → content.toList.all Text.isBlank
  | .error _ => False

/-- Every token may follow those in front of it. -/
def AllFit (before tokens : List Token) : Prop :=
  ∀ middle token after, tokens = middle ++ token :: after → Fits (before ++ middle) token

section Tokens

variable {before tokens rest root other : List Token}

private theorem leftOpen_snoc (before : List Token) (token : Token) :
    leftOpen (before ++ [token]) = openBehind (leftOpen before) token := by
  simp [leftOpen]

private theorem hasElement_snoc (before : List Token) (token : Token) :
    HasElement (before ++ [token]) ↔ HasElement before ∨ ∃ name selfClosing, token = .startTag name selfClosing := by
  simp only [HasElement, List.mem_append, List.mem_singleton]
  constructor
  · rintro ⟨name, selfClosing, earlier | rfl⟩
    · exact .inl ⟨name, selfClosing, earlier⟩
    · exact .inr ⟨name, selfClosing, rfl⟩
  · rintro (⟨name, selfClosing, earlier⟩ | ⟨name, selfClosing, rfl⟩)
    · exact ⟨name, selfClosing, .inl earlier⟩
    · exact ⟨name, selfClosing, .inr rfl⟩

/-- Nothing is open before the first start tag. -/
theorem leftOpen_of_no_element (none : ¬ HasElement tokens) : leftOpen tokens = [] := by
  induction tokens using List.reverseRecOn with
  | nil => rfl
  | append_singleton tokens token ih =>
    obtain ⟨earlier, last⟩ := not_or.mp (mt (hasElement_snoc tokens token).mpr none)
    rw [leftOpen_snoc, ih earlier]
    cases token with
    | startTag name selfClosing => exact absurd ⟨name, selfClosing, rfl⟩ last
    | endTag name | text content | error slice => rfl

/-- The first start tag stands outside of all elements. -/
theorem opensRoot_of_element (some : HasElement tokens) : ∃ before, OpensRoot tokens before := by
  induction tokens using List.reverseRecOn with
  | nil => obtain ⟨name, selfClosing, member⟩ := some; cases member
  | append_singleton tokens token ih =>
    by_cases earlier : HasElement tokens
    · obtain ⟨before, name, selfClosing, after, rfl, outside⟩ := ih earlier
      exact ⟨before, name, selfClosing, after ++ [token], by simp, outside⟩
    · rcases (hasElement_snoc tokens token).mp some with found | ⟨name, selfClosing, rfl⟩
      · exact absurd found earlier
      · exact ⟨tokens, name, selfClosing, [], rfl, leftOpen_of_no_element earlier⟩

private theorem allFit_cons : AllFit before (token :: rest) ↔ Fits before token ∧ AllFit (before ++ [token]) rest := by
  constructor
  · intro fit
    refine ⟨by simpa using fit [] token rest rfl, fun middle next after shape => ?_⟩
    simpa using fit (token :: middle) next after (by simp [shape])
  · rintro ⟨first, later⟩ middle next after shape
    rcases List.cons_eq_append_iff.mp shape with ⟨rfl, same⟩ | ⟨inner, rfl, behind⟩
    · cases same
      simpa using first
    · simpa using later inner next after behind

private theorem hasElement_append_start : HasElement (before ++ .startTag name selfClosing :: rest) :=
  ⟨name, selfClosing, by simp⟩

/-- Of two places for a root, the tokens in front of the later one would hold the start tag at the earlier. -/
theorem opensRoot_unique (fit : AllFit [] tokens) (first : OpensRoot tokens root) (second : OpensRoot tokens other) :
    root = other := by
  have not_behind {front between : List Token} (opensFront : OpensRoot tokens front)
      (opensBehind : OpensRoot tokens (front ++ between)) : between = [] := by
    obtain ⟨name, selfClosing, after, shape, outside⟩ := opensBehind
    obtain ⟨firstName, closes, behind, shapeFront, -⟩ := opensFront
    have fits : Fits (front ++ between) (.startTag name selfClosing) := by
      simpa using fit _ _ after shape
    cases between with
    | nil => rfl
    | cons token between =>
      rw [shape, List.append_assoc, List.cons_append, List.append_cancel_left_eq] at shapeFront
      cases shapeFront
      exact absurd hasElement_append_start (fits outside)
  obtain ⟨name, selfClosing, after, shape, -⟩ := id first
  obtain ⟨otherName, otherCloses, otherAfter, otherShape, -⟩ := id second
  rcases List.append_eq_append_iff.mp (shape.symm.trans otherShape) with ⟨between, rfl, -⟩ | ⟨between, rfl, -⟩
  · rw [not_behind first second, List.append_nil]
  · rw [not_behind second first, List.append_nil]

/-- Well-nested tokens are those of which each may follow the ones in front of it, with an element and nothing left
open. -/
theorem wellNested_iff : WellNested tokens ↔ AllFit [] tokens ∧ leftOpen tokens = [] ∧ HasElement tokens := by
  constructor
  · intro nested
    obtain ⟨root, opensRoot, only⟩ := nested.oneRoot
    refine ⟨fun middle token after shape => ?_, nested.closed, ?_⟩
    · rw [List.nil_append]
      cases token with
      | startTag name selfClosing =>
        intro outside earlier
        obtain ⟨front, first, closes, between, rfl, outsideFront⟩ := opensRoot_of_element earlier
        have here := only _ ⟨name, selfClosing, after, shape, outside⟩
        have before := only front ⟨first, closes, between ++ .startTag name selfClosing :: after, by simp [shape],
          outsideFront⟩
        have shorter := congrArg List.length (here.trans before.symm)
        simp at shorter
      | endTag name => exact nested.matched middle name after shape
      | text content => exact nested.blankOutside middle content after shape
      | error slice => exact nested.noError slice (by simp [shape])
    · obtain ⟨name, selfClosing, after, rfl, -⟩ := opensRoot
      exact hasElement_append_start
  · rintro ⟨fit, closed, element⟩
    have fits {middle token after} (shape : tokens = middle ++ token :: after) : Fits middle token := by
      simpa using fit middle token after shape
    refine ⟨?_, ?_, fun before name after shape => fits shape, closed, fun before content after shape => fits shape⟩
    · intro slice member
      obtain ⟨front, back, shape⟩ := List.append_of_mem member
      exact fits shape
    · obtain ⟨root, opensRoot⟩ := opensRoot_of_element element
      exact ⟨root, opensRoot, fun other opensOther => opensRoot_unique fit opensOther opensRoot⟩

end Tokens

/-! ## Reading tokens -/

/-- What a builder keeps of the tokens it has taken. -/
structure Tracks (before : List Token) (builder : Builder) : Prop where
  names : builder.opened.map OpenElement.qualifiedName = leftOpen before
  root : builder.root.isSome ↔ leftOpen before = [] ∧ HasElement before

/-- What comes of taking tokens: if they fit, a builder that keeps track of all tokens so far, and otherwise a
complaint with a line. -/
inductive Judged (fit : Prop) (tokens : List Token) : Except Fault Builder → Prop where
  | taken (fits : fit) (tracks : Tracks tokens next) : Judged fit tokens (.ok next)
  | refused (misfits : ¬ fit) (complaint : Complaint) (line : Nat) :
      Judged fit tokens (.error (.malformed complaint (some line)))

section Reading

variable {before tokens : List Token} {builder : Builder} {outer : List OpenElement}

private theorem tracks_nothing : Tracks [] {} := by
  refine ⟨rfl, ?_⟩
  simp [HasElement]

/-- An open element has a start tag. -/
theorem hasElement_of_open (inside : leftOpen before ≠ []) : HasElement before := by
  by_contra none
  exact inside (leftOpen_of_no_element none)

/-- Once the innermost element is finished, the others are still open, or there is a root. -/
theorem tracks_finish (names : outer.map OpenElement.qualifiedName = leftOpen tokens) (element : HasElement tokens)
    (inner : OpenElement) : Tracks tokens (Builder.finish inner outer none) := by
  cases outer with
  | nil => exact ⟨names, by simp [Builder.finish, ← names, element]⟩
  | cons parent rest => exact ⟨names, by simp [Builder.finish, ← names]⟩

/-- Text changes neither which elements are open nor whether there is a root. -/
theorem tracks_text (tracks : Tracks before builder) (content : String) {next : Builder}
    (names : next.opened.map OpenElement.qualifiedName = builder.opened.map OpenElement.qualifiedName)
    (root : next.root = builder.root) : Tracks (before ++ [.text content]) next := by
  have same : leftOpen (before ++ [.text content]) = leftOpen before := leftOpen_snoc ..
  have element : HasElement (before ++ [.text content]) ↔ HasElement before := by simp [hasElement_snoc]
  exact ⟨by rw [same, names, tracks.names], by rw [same, element, root, tracks.root]⟩

private theorem step_startTag (tracks : Tracks before builder) (name : String) (selfClosing : Bool) (line : Nat) :
    Judged (Fits before (.startTag name selfClosing)) (before ++ [.startTag name selfClosing])
      (builder.step (.startTag name selfClosing) line) := by
  obtain ⟨opened, root⟩ := builder
  cases root with
  | some root =>
    obtain ⟨outside, element⟩ := tracks.root.mp rfl
    exact .refused (fun fits => fits outside element) _ line
  | none =>
    have fits : Fits before (.startTag name selfClosing) :=
      fun outside element => nomatch tracks.root.mpr ⟨outside, element⟩
    cases selfClosing with
    | true =>
      have names : opened.map OpenElement.qualifiedName = leftOpen (before ++ [.startTag name true]) := by
        rw [leftOpen_snoc]
        exact tracks.names
      exact .taken fits (tracks_finish names hasElement_append_start _)
    | false =>
      have names : name :: opened.map OpenElement.qualifiedName = leftOpen (before ++ [.startTag name false]) := by
        rw [leftOpen_snoc, ← tracks.names]
        rfl
      exact .taken fits ⟨names, by simp [← names]⟩

private theorem step_endTag (tracks : Tracks before builder) (name : String) (line : Nat) :
    Judged (Fits before (.endTag name)) (before ++ [.endTag name]) (builder.step (.endTag name) line) := by
  obtain ⟨opened, root⟩ := builder
  have names := tracks.names
  cases opened with
  | nil => exact .refused (by simp [Fits, ← names]) _ line
  | cons inner outer =>
    have inside : leftOpen before ≠ [] := by simp [← names]
    by_cases same : inner.qualifiedName = name
    · have unrooted : root = none := by
        by_contra some
        exact inside (tracks.root.mp (Option.isSome_iff_ne_none.mpr some)).1
      have element := (hasElement_snoc before (.endTag name)).mpr (.inl (hasElement_of_open inside))
      have left : outer.map OpenElement.qualifiedName = leftOpen (before ++ [.endTag name]) := by
        rw [leftOpen_snoc, ← names]
        rfl
      simp only [Builder.step, same, ↓reduceIte, unrooted]
      exact .taken (by simp [Fits, ← names, same]) (tracks_finish left element inner)
    · simp only [Builder.step, same, ↓reduceIte]
      exact .refused (by simpa [Fits, ← names] using same) _ line

private theorem step_text (tracks : Tracks before builder) (content : String) (line : Nat) :
    Judged (Fits before (.text content)) (before ++ [.text content]) (builder.step (.text content) line) := by
  obtain ⟨opened, root⟩ := builder
  have names := tracks.names
  cases opened with
  | nil =>
    by_cases blank : content.toList.all Text.isBlank
    · rw [Builder.step, if_pos blank]
      exact .taken (fun _ => blank) (tracks_text tracks content rfl rfl)
    · rw [Builder.step, if_neg blank]
      exact .refused (fun fits => blank (fits names.symm)) _ line
  | cons inner outer =>
    have inside : leftOpen before ≠ [] := by simp [← names]
    exact .taken (fun outside => absurd outside inside) (tracks_text tracks content rfl rfl)

/-- One token is taken exactly if it fits. -/
theorem step_judged (tracks : Tracks before builder) (token : Token) (line : Nat) :
    Judged (Fits before token) (before ++ [token]) (builder.step token line) := by
  cases token with
  | startTag name selfClosing => exact step_startTag tracks name selfClosing line
  | endTag name => exact step_endTag tracks name line
  | text content => exact step_text tracks content line
  | error slice => exact .refused id _ line

/-- Tokens are taken to the end exactly if each of them fits. -/
theorem run_judged (lines : Text.LineTable) (lexemes : List Lexeme) (tracks : Tracks before builder) :
    Judged (AllFit before (lexemes.map Lexeme.token)) (before ++ lexemes.map Lexeme.token)
      (Builder.run lines builder lexemes) := by
  induction lexemes generalizing before builder with
  | nil => exact .taken (by simp [AllFit]) (by simpa using tracks)
  | cons lexeme rest ih =>
    have first := step_judged tracks lexeme.token (lines.lineAt lexeme.start)
    rw [Builder.run, List.map_cons, allFit_cons]
    cases stepped : builder.step lexeme.token (lines.lineAt lexeme.start) with
    | error fault =>
      rw [stepped] at first
      cases first with
      | refused misfits complaint line => exact .refused (fun fits => misfits fits.1) complaint line
    | ok next =>
      rw [stepped] at first
      cases first with
      | taken fits later =>
        have behind := ih later
        rw [List.append_assoc, List.singleton_append] at behind
        dsimp only
        cases ran : Builder.run lines next rest with
        | error fault =>
          rw [ran] at behind
          cases behind with
          | refused misfits complaint line => exact .refused (fun fits => misfits fits.2) complaint line
        | ok final =>
          rw [ran] at behind
          cases behind with
          | taken fitsLater tracksLater => exact .taken ⟨fits, fitsLater⟩ tracksLater

/-! ## Documents -/

private theorem allFit_of_onlyBlank (blank : OnlyBlank tokens) : AllFit before tokens := by
  intro middle token after shape
  obtain ⟨content, rfl, isBlank⟩ := blank token (by simp [shape])
  exact fun _ => isBlank

private theorem no_element_of_onlyBlank (blank : OnlyBlank tokens) : ¬ HasElement tokens := by
  rintro ⟨name, selfClosing, member⟩
  obtain ⟨content, same, -⟩ := blank _ member
  cases same

/-- Without an element there is no end tag to fit either, and all text is outside. -/
theorem onlyBlank_of_no_element (fit : AllFit [] tokens) (none : ¬ HasElement tokens) : OnlyBlank tokens := by
  intro token member
  obtain ⟨front, back, shape⟩ := List.append_of_mem member
  have fits : Fits front token := by simpa using fit front token back shape
  have closed : leftOpen front = [] := by
    apply leftOpen_of_no_element
    rintro ⟨name, selfClosing, earlier⟩
    exact none ⟨name, selfClosing, by simp [shape, earlier]⟩
  cases token with
  | startTag name selfClosing => exact absurd ⟨name, selfClosing, member⟩ none
  | endTag name => simp [Fits, closed] at fits
  | text content => exact ⟨content, rfl, fits closed⟩
  | error slice => exact fits.elim

/-- The end of the tokens: a root if they are well nested, and otherwise a complaint, without a line only if there was
no element to complain about. -/
theorem result_judged (fit : AllFit [] tokens) (tracks : Tracks tokens builder) :
    (WellNested tokens ∧ ∃ root, builder.result = .ok root) ∨
      ¬ WellNested tokens ∧ ∃ complaint line, builder.result = .error (.malformed complaint line) ∧
        (line = none ↔ OnlyBlank tokens) := by
  rw [wellNested_iff]
  obtain ⟨opened, root⟩ := builder
  have names := tracks.names
  cases opened with
  | cons inner outer =>
    have inside : leftOpen tokens ≠ [] := by simp [← names]
    refine .inr ⟨fun nested => inside nested.2.1, .unclosed inner.qualifiedName, some inner.line, rfl, ?_⟩
    simpa using fun blank => no_element_of_onlyBlank blank (hasElement_of_open inside)
  | nil =>
    have closed : leftOpen tokens = [] := names.symm
    cases root with
    | some root =>
      obtain ⟨-, element⟩ := tracks.root.mp rfl
      exact .inl ⟨⟨fit, closed, element⟩, root, rfl⟩
    | none =>
      have none : ¬ HasElement tokens := fun element => nomatch tracks.root.mpr ⟨closed, element⟩
      refine .inr ⟨fun nested => none nested.2.2, .noRoot, Option.none, rfl, ?_⟩
      simpa using onlyBlank_of_no_element fit none

end Reading

/-- **Markup is accepted exactly if its tokens are well nested.** Any other markup is refused with a complaint, which
names a line if the markup holds an element at all, and in fact unless it holds nothing but blanks. -/
theorem markup_accepted_iff_well_nested (text : String) :
    let tokens := (scan text).map Lexeme.token
    ((∃ root, Element.ofText text = .ok root) ↔ WellNested tokens) ∧
      (¬ WellNested tokens → ∃ complaint line, Element.ofText text = .error (.malformed complaint line) ∧
        (HasElement tokens → line.isSome) ∧ (line = none ↔ OnlyBlank tokens)) := by
  intro tokens
  have judged := run_judged (Text.LineTable.ofText text) (scan text) tracks_nothing
  rw [List.nil_append] at judged
  unfold Element.ofText
  cases ran : Builder.run (Text.LineTable.ofText text) {} (scan text) with
  | error fault =>
    rw [ran] at judged
    cases judged with
    | refused misfits complaint line =>
      have refused : ¬ WellNested tokens := fun nested => misfits (wellNested_iff.mp nested).1
      refine ⟨by simp [refused], fun _ => ⟨complaint, some line, rfl, fun _ => rfl, ?_⟩⟩
      simpa using fun blank => misfits (allFit_of_onlyBlank blank)
  | ok builder =>
    rw [ran] at judged
    cases judged with
    | taken fits tracks =>
      rcases result_judged fits tracks with ⟨nested, root, accepted⟩ | ⟨unnested, complaint, line, refused, blank⟩
      · exact ⟨by simp [accepted, nested, tokens], fun unnested => absurd nested unnested⟩
      · refine ⟨by simp [refused, unnested, tokens], fun _ => ⟨complaint, line, refused, fun element => ?_, blank⟩⟩
        rw [Option.isSome_iff_ne_none]
        exact fun none => no_element_of_onlyBlank (blank.mp none) element

/-- A root with blanks around it is accepted, and an end tag of another name is refused on its line. -/
theorem end_tag_of_another_name_is_refused :
    WellNested ((scan " <a><b/>x</a>").map Lexeme.token) ∧
      ¬ WellNested ((scan "<a>\n</b>").map Lexeme.token) ∧
      ∃ complaint line, Element.ofText "<a>\n</b>" = .error (.malformed complaint line) ∧ line.isSome := by
  have accepted : Element.ofText " <a><b/>x</a>" = .ok ⟨"a", "x", 1, [⟨"b", "", 1, []⟩]⟩ := by
    with_unfolding_all rfl
  have refused : Element.ofText "<a>\n</b>" = .error (.malformed (.mismatchedEnd "b" "a") (some 2)) := by
    with_unfolding_all rfl
  have tokens : (scan "<a>\n</b>").map Lexeme.token = [.startTag "a" false, .text "\n", .endTag "b"] := by
    with_unfolding_all rfl
  obtain ⟨decides, explains⟩ := markup_accepted_iff_well_nested "<a>\n</b>"
  have unnested : ¬ WellNested ((scan "<a>\n</b>").map Lexeme.token) := by
    intro nested
    obtain ⟨root, ran⟩ := decides.mpr nested
    rw [refused] at ran
    cases ran
  refine ⟨(markup_accepted_iff_well_nested " <a><b/>x</a>").1.mp ⟨_, accepted⟩, unnested, ?_⟩
  obtain ⟨complaint, line, ran, named, -⟩ := explains unnested
  exact ⟨complaint, line, ran, named ⟨"a", false, by simp [tokens]⟩⟩

end FormulaSheet.NestedMarkup
