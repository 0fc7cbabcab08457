import FormulaSheet.Proofs.Sequencing
import FormulaSheet.Proofs.SourceScanning
import FormulaSheet.Target.Machine

/-! What the string literals of the target languages denote. One language escapes what a literal cannot hold; its output
statements print what a run of the program prints, although the label of a value goes through two layers, doubled braces
for the format and escapes for the literal. The other language joins quoted lines by a constant for the newline, and
writes every other character as it is. -/
namespace FormulaSheet.StringLiterals
open Target SourceScanning Sequencing

/-! ## Literals with escapes, and formats -/

/-- A literal with escapes in front of a source text: the text that it denotes, and what follows it. -/
def literal? : List Char → Option (List Char × List Char)
  | '"' :: rest => escapedString? rest
  | _ => none

/-- A format with its argument put in: a doubled brace is a brace, and the only item is the first argument. -/
def formatted? (argument : List Char) : List Char → Option (List Char)
  | [] => some []
  | '\x7b' :: '\x7b' :: rest => (formatted? argument rest).map ('\x7b' :: ·)
  | '\x7d' :: '\x7d' :: rest => (formatted? argument rest).map ('\x7d' :: ·)
  | '\x7b' :: '0' :: '\x7d' :: rest => (formatted? argument rest).map (argument ++ ·)
  | c :: rest => if c = '\x7b' ∨ c = '\x7d' then none else (formatted? argument rest).map (c :: ·)

/-- How an output statement begins. -/
def printing : String := "Console.WriteLine("

/-- How the argument of an output statement begins if it is formatted. -/
def formatting : String := "string.Format(CultureInfo.InvariantCulture, "

/-- The line that an output statement prints if its argument has a given text. A literal is printed as it is, or
formats the argument behind it. -/
def statementLine? (argument statement : List Char) : Option (List Char) :=
  match printing.toList.isPrefixOf? statement with
  | some rest =>
    match literal? rest, (formatting.toList.isPrefixOf? rest).bind literal? with
    | some (text, [')', ';']), _ => some text
    | none, some (format, ',' :: ' ' :: _) => formatted? argument format
    | _, _ => none
  | none => none

/-- The line that an action prints if its value has a given text. -/
def lineOf (argument : String) : Action → String
  | .line text => text
  | .value (some label) _ => label ++ " = " ++ argument
  | .value none _ => argument

/-- The text of the value that an action prints, which only the program can tell. -/
def valueText (program : Program) (depth : Nat) (fields : Bindings Value) : Action → Run String
  | .line _ => return ""
  | .value _ expr => do
    let value ← evalWith (callAt program fields depth) fields {} expr
    return value.text

private theorem literal?_stringLiteral (text : String) (rest : List Char) :
    literal? ((CSharp.stringLiteral text).toList ++ rest) = some (text.toList, rest) := by
  have read := escapedString?_literal text.toList rest
  simpa [CSharp.stringLiteral, literal?] using read

/-- A literal stays on its line: the two characters that end one are written as escapes. -/
theorem stringLiteral_one_line (text : String) : ∀ c ∈ (CSharp.stringLiteral text).toList, endsLine c = false := by
  have escaped (d : Char) : ∀ c ∈ CSharp.literalChar d, endsLine c = false := by
    unfold CSharp.literalChar endsLine
    split_ifs <;> simp_all
  intro c member
  simp only [CSharp.stringLiteral, String.toList_ofList, List.mem_cons, List.mem_append, List.mem_flatMap,
    List.not_mem_nil, or_false] at member
  rcases member with rfl | ⟨d, -, member⟩ | rfl
  · rfl
  · exact escaped d c member
  · rfl

private theorem formatted?_plain (argument : List Char) (plain : ¬(c = '\x7b' ∨ c = '\x7d')) :
    formatted? argument (c :: rest) = (formatted? argument rest).map (c :: ·) := by
  rw [formatted?]
  · exact if_neg plain
  · exact fun _ same _ => plain (.inl same)
  · exact fun _ same _ => plain (.inr same)
  · exact fun _ same _ => plain (.inl same)

/-- A label with its braces doubled is itself in the formatted text. -/
theorem formatted?_escaped (argument rest : List Char) (label : String) :
    formatted? argument ((formatEscaped label).toList ++ rest) =
      (formatted? argument rest).map (label.toList ++ ·) := by
  rw [formatEscaped, String.toList_ofList]
  induction label.toList with
  | nil => simp
  | cons c label ih =>
    rw [List.flatMap_cons, List.append_assoc]
    by_cases brace : c = '\x7b' ∨ c = '\x7d'
    · rcases brace with rfl | rfl <;> simp [formatted?, ih, Function.comp_def]
    · rw [if_neg brace, List.singleton_append, formatted?_plain argument brace, ih, Option.map_map]
      rfl

/-- The format of a labelled value prints the label, a sign of equality and the value. -/
theorem formatted?_valueFormat (argument : String) (label : Option String) (expr : Expr) :
    formatted? argument.toList (valueFormat label).toList = some (lineOf argument (.value label expr)).toList := by
  have item : formatted? argument.toList ['\x7b', '0', '\x7d'] = some argument.toList := by simp [formatted?]
  cases label with
  | none => exact item
  | some label =>
    have behind : formatted? argument.toList (" = \x7b0\x7d").toList = some (" = ".toList ++ argument.toList) := by
      simp [formatted?]
    rw [valueFormat, String.toList_append, formatted?_escaped, behind]
    simp [lineOf]

private theorem isPrefixOf?_append (front back : List Char) : front.isPrefixOf? (front ++ back) = some back :=
  List.isPrefixOf?_eq_some_iff_append_eq.mpr rfl

private theorem statementLine?_line (argument : List Char) (text : String) :
    statementLine? argument (CSharp.action (.line text)).toList = some text.toList := by
  have joined (front middle back : String) :
      (front ++ middle ++ back).toList = front.toList ++ (middle.toList ++ back.toList) := by simp
  have shape : (CSharp.action (.line text)).toList =
      printing.toList ++ ((CSharp.stringLiteral text).toList ++ [')', ';']) := joined _ _ _
  rw [statementLine?, shape, isPrefixOf?_append]
  simp only [literal?_stringLiteral]

private theorem statementLine?_value (argument : List Char) (label : Option String) (expr : Expr) :
    statementLine? argument (CSharp.action (.value label expr)).toList =
      formatted? argument (valueFormat label).toList := by
  have joined (head front middle back value ending : String) :
      (head ++ front ++ middle ++ back ++ value ++ ending).toList =
        head.toList ++ (front.toList ++ (middle.toList ++ (back.toList ++ (value.toList ++ ending.toList)))) := by simp
  have heads : "Console.WriteLine(string.Format(CultureInfo.InvariantCulture, " = printing ++ formatting := by decide
  have written : CSharp.action (.value label expr) =
      printing ++ formatting ++ CSharp.stringLiteral (valueFormat label) ++ ", " ++ expr.text CSharp.dialect ++ "));" :=
    congrArg (· ++ CSharp.stringLiteral (valueFormat label) ++ ", " ++ expr.text CSharp.dialect ++ "));") heads
  have shape : (CSharp.action (.value label expr)).toList =
      printing.toList ++ (formatting.toList ++ ((CSharp.stringLiteral (valueFormat label)).toList ++
        ',' :: ' ' :: ((expr.text CSharp.dialect).toList ++ [')', ')', ';']))) :=
    (congrArg String.toList written).trans (joined _ _ _ _ _ _)
  have unquoted (rest : List Char) : literal? (formatting.toList ++ rest) = none := by rfl
  rw [statementLine?, shape, isPrefixOf?_append]
  simp only [unquoted, isPrefixOf?_append, Option.bind_some, literal?_stringLiteral]

private theorem statementLine?_action (argument : String) (action : Action) :
    statementLine? argument.toList (CSharp.action action).toList = some (lineOf argument action).toList := by
  cases action with
  | line text => exact statementLine?_line argument.toList text
  | value label expr => rw [statementLine?_value, formatted?_valueFormat argument label expr]

/-- Performing an action adds its line to the output, behind what its value has printed. -/
theorem perform_output (program : Program) (depth : Nat) (fields : Bindings Value) (action : Action)
    (console : Console) :
    perform program depth fields action console =
      match valueText program depth fields action console with
      | .ok argument after => .ok () ⟨after.input, after.output ++ (lineOf argument action ++ "\n")⟩
      | .error fault after => .error fault after := by
  cases action with
  | line text => rfl
  | value label expr =>
    have performed : perform program depth fields (.value label expr) =
        valueText program depth fields (.value label expr) >>= fun argument =>
          print (lineOf argument (.value label expr) ++ "\n") := by
      cases label <;> simp [perform, valueText, lineOf]
    rw [performed]
    cases ran : valueText program depth fields (.value label expr) console with
    | ok argument after => exact bind_of_ok ran
    | error fault after => exact bind_of_error ran

/-- **Output statements print what a run prints.** A literal with escapes is read up to its own end, whatever follows,
denotes its text, and stays on one line. The output statement of an action prints, for any text of its value, the line
with the label in front, and that is the line by which the output grows when the action is performed. -/
theorem output_statements_print_as_run :
    (∀ (text : String) (rest : List Char),
      literal? ((CSharp.stringLiteral text).toList ++ rest) = some (text.toList, rest) ∧
        '\n' ∉ (CSharp.stringLiteral text).toList ∧ '\r' ∉ (CSharp.stringLiteral text).toList) ∧
    (∀ (argument : String) (action : Action),
      statementLine? argument.toList (CSharp.action action).toList = some (lineOf argument action).toList) ∧
    ∀ (program : Program) (depth : Nat) (fields : Bindings Value) (action : Action) (console : Console),
      perform program depth fields action console =
        match valueText program depth fields action console with
        | .ok argument after => .ok () ⟨after.input, after.output ++ (lineOf argument action ++ "\n")⟩
        | .error fault after => .error fault after := by
  refine ⟨fun text rest => ⟨literal?_stringLiteral text rest, ?_, ?_⟩, statementLine?_action, perform_output⟩
  · exact fun member => absurd (stringLiteral_one_line text _ member) (by decide)
  · exact fun member => absurd (stringLiteral_one_line text _ member) (by decide)

/-! ## Quoted lines joined by newlines -/

/-- Where the reading of joined lines stands. -/
inductive Place where
  /-- In front of a quoted line or of the constant for a newline. -/
  | operand
  /-- Behind the opening quote of a line. -/
  | inside
  /-- Behind a line or a constant. -/
  | behind

/-- The text that quoted lines and constants denote which are joined by the sign of concatenation. A doubled quote
inside a line is a quote. Inside a line there is no character that `ends` a line of the source. -/
def joined? (ends : Char → Bool) : Place → List Char → Option (List Char)
  | .operand, '"' :: rest => joined? ends .inside rest
  | .operand, 'v' :: 'b' :: 'L' :: 'f' :: rest => (joined? ends .behind rest).map ('\n' :: ·)
  | .operand, _ => none
  | .inside, '"' :: '"' :: rest => (joined? ends .inside rest).map ('"' :: ·)
  | .inside, '"' :: rest => joined? ends .behind rest
  | .inside, c :: rest => if ends c then none else (joined? ends .inside rest).map (c :: ·)
  | .inside, [] => none
  | .behind, ' ' :: '&' :: ' ' :: rest => joined? ends .operand rest
  | .behind, [] => some []
  | .behind, _ :: _ => none

/-- How a character stands between the quotes of a literal. A newline ends a line and begins another. -/
def writtenChar (c : Char) : List Char :=
  if c = '\n' then "\" & vbLf & \"".toList else if c = '"' then ['"', '"'] else [c]

private theorem textLines_cons (cs : List Char) : ∃ line rest, VisualBasic.textLines cs = line :: rest := by
  cases cs with
  | nil => exact ⟨_, _, rfl⟩
  | cons c cs =>
    rw [VisualBasic.textLines]
    split
    · exact ⟨_, _, rfl⟩
    · split
      · exact ⟨_, _, rfl⟩
      · exact ⟨_, _, rfl⟩

private theorem stringLiteral_chars (text : String) :
    (VisualBasic.stringLiteral text).toList = '"' :: (text.toList.flatMap writtenChar ++ ['"']) := by
  rw [VisualBasic.stringLiteral]
  induction text.toList with
  | nil => rfl
  | cons c cs ih =>
    obtain ⟨line, rest, shape⟩ := textLines_cons cs
    rw [shape] at ih
    by_cases newline : c = '\n'
    · have written : writtenChar c = "\" & vbLf & \"".toList := if_pos newline
      rw [VisualBasic.textLines, if_pos newline, shape, List.flatMap_cons, written]
      simp only [List.map_cons, String.intercalate_cons_cons, String.toList_append] at ih ⊢
      rw [ih]
      rfl
    · -- The character goes to the front of the first line, whether or not other lines follow.
      have begun (rest : List Char) : (VisualBasic.quotedLine (c :: line)).toList ++ rest =
          '"' :: (writtenChar c ++ ((VisualBasic.quotedLine line).toList ++ rest).tail) := by
        simp [VisualBasic.quotedLine, writtenChar, newline]
      have joined (rest : List (List Char)) :
          (String.intercalate " & vbLf & " (((c :: line) :: rest).map VisualBasic.quotedLine)).toList =
            '"' :: (writtenChar c ++
              (String.intercalate " & vbLf & " ((line :: rest).map VisualBasic.quotedLine)).toList.tail) := by
        cases rest with
        | nil => simpa using begun []
        | cons next rest =>
          simp only [List.map_cons, String.intercalate_cons_cons, String.toList_append, List.append_assoc]
          exact begun _
      rw [VisualBasic.textLines, if_neg newline, shape]
      simp only [joined, ih, List.tail_cons, List.flatMap_cons, List.append_assoc]

/-- A character is read as it is written, unless it ends the line of the source. -/
theorem joined?_writtenChar (ends : Char → Bool) (unquoted : ends '"' = false) (c : Char) (rest : List Char) :
    joined? ends .inside (writtenChar c ++ rest) =
      if c ≠ '\n' ∧ ends c then none else (joined? ends .inside rest).map (c :: ·) := by
  by_cases newline : c = '\n'
  · subst newline
    simp [writtenChar, joined?]
  by_cases quote : c = '"'
  · subst quote
    simp [writtenChar, joined?, unquoted]
  · have written : writtenChar c = [c] := by rw [writtenChar, if_neg newline, if_neg quote]
    rw [written, List.singleton_append, joined?]
    · simp [newline]
    · exact fun _ same _ => quote same
    · exact quote

/-- A literal denotes its text exactly if no character of it but newlines ends a line of the source. -/
theorem joined?_stringLiteral_iff (ends : Char → Bool) (unquoted : ends '"' = false) (text : String) :
    joined? ends .operand (VisualBasic.stringLiteral text).toList = some text.toList ↔
      ∀ c ∈ text.toList, c ≠ '\n' → ends c = false := by
  rw [stringLiteral_chars, joined?]
  induction text.toList with
  | nil => simp [joined?]
  | cons c text ih =>
    rw [List.flatMap_cons, List.append_assoc, joined?_writtenChar ends unquoted, List.forall_mem_cons]
    by_cases broken : c ≠ '\n' ∧ ends c
    · simp [broken]
    · have fine : c ≠ '\n' → ends c = false := by simpa using broken
      rw [if_neg broken, ← ih, and_iff_right fine, Option.map_eq_some_iff]
      simp

/-- A character that no sign of the literal has comes from the text, and is not a newline. -/
theorem mem_stringLiteral (foreign : c ∉ "\" & vbLf & \"".toList) (text : String) :
    c ∈ (VisualBasic.stringLiteral text).toList ↔ c ∈ text.toList ∧ c ≠ '\n' := by
  have notQuote : c ≠ '"' := by
    rintro rfl
    exact foreign (by decide)
  have written (d : Char) : c ∈ writtenChar d ↔ c = d ∧ d ≠ '\n' := by
    unfold writtenChar
    split_ifs <;> simp_all
  simp only [stringLiteral_chars, List.mem_cons, List.mem_append, List.mem_flatMap, List.not_mem_nil, notQuote, written,
    or_false, false_or]
  constructor
  · rintro ⟨d, member, rfl, other⟩
    exact ⟨member, other⟩
  · rintro ⟨member, other⟩
    exact ⟨c, member, rfl, other⟩

/-- **Quoted lines denote their text, on one line of source but for carriage returns.** A literal is made of quoted
lines and constants for newlines, denotes its text and holds no newline. A carriage return of the text stands in the
literal as it is; as it ends a line of the source, the literal can be read exactly if the text has none. -/
theorem quoted_lines_denote_text (text : String) :
    let literal := (VisualBasic.stringLiteral text).toList
    joined? (· = '\n') .operand literal = some text.toList ∧
      '\n' ∉ literal ∧ ('\r' ∈ literal ↔ '\r' ∈ text.toList) ∧
      (joined? endsLine .operand literal = some text.toList ↔ '\r' ∉ text.toList) := by
  intro literal
  refine ⟨?_, ?_, ?_, ?_⟩
  · rw [joined?_stringLiteral_iff _ rfl]
    exact fun c _ other => decide_eq_false other
  · exact fun member => ((mem_stringLiteral (by decide) text).mp member).2 rfl
  · rw [mem_stringLiteral (by decide) text]
    simp
  · rw [joined?_stringLiteral_iff _ rfl]
    constructor
    · intro plain member
      cases plain '\r' member (by decide)
    · intro none c member other
      have notReturn : c ≠ '\r' := fun same => none (same ▸ member)
      simp [endsLine, other, notReturn]

/-- A text with a carriage return is written on two lines of source, and what is written cannot be read. -/
theorem carriage_return_breaks_literal :
    '\r' ∈ (VisualBasic.stringLiteral "a\rb").toList ∧
      joined? endsLine .operand (VisualBasic.stringLiteral "a\rb").toList ≠ some "a\rb".toList := by
  constructor
  · decide
  · decide

end FormulaSheet.StringLiterals
