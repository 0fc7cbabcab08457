import FormulaSheet.Proofs.DecimalLiterals
import FormulaSheet.Proofs.SourceExpressions

/-! How the target languages cut the text of an expression into tokens. Each token is as long as it can be. The
languages differ in string literals only: in one a quote is escaped, in the other it is doubled; and one has a token of
its own for two minus signs in a row, which is no part of an expression. -/
namespace FormulaSheet.SourceScanning
open Target SourceExpressions ShortestDecimals DecimalLiterals

/-! ## Literals -/

/-- A string literal does not go on behind the end of its line. -/
def endsLine (c : Char) : Bool := c = '\n' || c = '\r'

/-- The character that stands behind a backslash for another one. -/
def escaped? : Char → Option Char
  | '"' => some '"'
  | '\\' => some '\\'
  | 'n' => some '\n'
  | 'r' => some '\r'
  | 't' => some '\t'
  | _ => none

/-- The text of a literal with escapes behind its opening quote, and what follows its closing quote. -/
def escapedString? : List Char → Option (List Char × List Char)
  | [] => none
  | '"' :: rest => some ([], rest)
  | '\\' :: mark :: rest =>
    match escaped? mark, escapedString? rest with
    | some c, some (text, rest) => some (c :: text, rest)
    | _, _ => none
  | c :: rest =>
    if c = '\\' || endsLine c then none
    else
      match escapedString? rest with
      | some (text, rest) => some (c :: text, rest)
      | none => none

/-- The text of a literal with doubled quotes behind its opening quote, and what follows its closing quote. -/
def doubledString? : List Char → Option (List Char × List Char)
  | [] => none
  | '"' :: '"' :: rest =>
    match doubledString? rest with
    | some (text, rest) => some ('"' :: text, rest)
    | none => none
  | '"' :: rest => some ([], rest)
  | c :: rest =>
    if endsLine c then none
    else
      match doubledString? rest with
      | some (text, rest) => some (c :: text, rest)
      | none => none

def string? : Language → List Char → Option (List Char × List Char)
  | .csharp => escapedString?
  | .visualBasic => doubledString?

/-- A point with the digits behind it, if there is one. -/
def fractionRun : List Char → List Char × List Char
  | '.' :: rest => ('.' :: rest.takeWhile Char.isDigit, rest.dropWhile Char.isDigit)
  | rest => ([], rest)

/-- The mark of an exponent with the integer behind it, if there is one. -/
def powerRun : List Char → List Char × List Char
  | 'e' :: '-' :: rest => ('e' :: '-' :: rest.takeWhile Char.isDigit, rest.dropWhile Char.isDigit)
  | 'e' :: rest => ('e' :: rest.takeWhile Char.isDigit, rest.dropWhile Char.isDigit)
  | rest => ([], rest)

/-- A number: digits with the mark of type long, or a decimal with a point or an exponent. -/
def number? (cs : List Char) : Option (Token × List Char) :=
  let whole := cs.takeWhile Char.isDigit
  let fraction := fractionRun (cs.dropWhile Char.isDigit)
  let power := powerRun fraction.2
  if fraction.1 = [] ∧ power.1 = [] then
    match power.2, Decimal.numeral? 10 whole with
    | 'L' :: rest, some value => some (.whole value, rest)
    | _, _ => none
  else
    let spelling := whole ++ (fraction.1 ++ power.1)
    if (Decimal.scaled? spelling).isSome then some (.decimal (String.ofList spelling), power.2) else none

/-! ## Tokens -/

/-- The tokens of a single character; a space only separates tokens. -/
def symbol? : Char → Option (List Token)
  | ' ' => some []
  | '(' => some [.left]
  | ')' => some [.right]
  | ',' => some [.comma]
  | '.' => some [.dot]
  | '+' => some [.operator .add]
  | '-' => some [.operator .sub]
  | '*' => some [.operator .mul]
  | '/' => some [.operator .div]
  | _ => none

/-- Two minus signs in a row are a token that no expression has. -/
def decrements (language : Language) (c : Char) (rest : List Char) : Bool :=
  language = .csharp && c = '-' && rest.head? = some '-'

/-- The first token of a text, or a space, and what follows. -/
def next? (language : Language) : List Char → Option (List Token × List Char)
  | [] => none
  | c :: rest =>
    match symbol? c with
    | some tokens => if decrements language c rest then none else some (tokens, rest)
    | none =>
      if c = '"' then
        match string? language rest with
        | some (text, rest) => some ([.string (String.ofList text)], rest)
        | none => none
      else if c.isDigit then
        match number? (c :: rest) with
        | some (token, rest) => some ([token], rest)
        | none => none
      else if isWordChar c then
        some ([.word (String.ofList (c :: rest.takeWhile isWordChar))], rest.dropWhile isWordChar)
      else none

/-- The tokens of a text, in at most `limit` steps. -/
def scanFrom (language : Language) : Nat → List Char → Option (List Token)
  | _, [] => some []
  | 0, _ :: _ => none
  | limit + 1, c :: rest =>
    match next? language (c :: rest) with
    | some (tokens, rest) => (scanFrom language limit rest).map (tokens ++ ·)
    | none => none

def scan (language : Language) (cs : List Char) : Option (List Token) := scanFrom language cs.length cs

/-- The expression that a text spells. -/
def read? (language : Language) (text : String) : Option Tree :=
  match scan language text.toList with
  | some tokens => readTokens? language tokens
  | none => none

/-! ## Steps -/

private theorem escapedString?_shorter (read : escapedString? cs = some (text, rest)) : rest.length < cs.length := by
  fun_induction escapedString? cs generalizing text with
  | case1 => cases read
  | case2 => cases read; simp
  | case3 mark later c inner after found meant ih =>
    cases read
    have := ih found
    simp only [List.length_cons]
    omega
  | case4 => cases read
  | case5 => cases read
  | case6 c later notQuote notEscape plain inner after found ih =>
    cases read
    have := ih found
    simp only [List.length_cons]
    omega
  | case7 => cases read

private theorem doubledString?_shorter (read : doubledString? cs = some (text, rest)) : rest.length < cs.length := by
  fun_induction doubledString? cs generalizing text with
  | case1 => cases read
  | case2 later inner after found ih =>
    cases read
    have := ih found
    simp only [List.length_cons]
    omega
  | case3 => cases read
  | case4 => cases read; simp
  | case5 => cases read
  | case6 c later notDoubled notQuote plain inner after found ih =>
    cases read
    have := ih found
    simp only [List.length_cons]
    omega
  | case7 => cases read

private theorem string?_shorter (read : string? language cs = some (text, rest)) : rest.length < cs.length := by
  cases language with
  | csharp => exact escapedString?_shorter read
  | visualBasic => exact doubledString?_shorter read

private theorem length_dropWhile_le (kind : Char → Bool) (cs : List Char) : (cs.dropWhile kind).length ≤ cs.length :=
  (List.dropWhile_sublist kind).length_le

private theorem fractionRun_le (cs : List Char) : (fractionRun cs).2.length ≤ cs.length := by
  unfold fractionRun
  split
  · rename_i rest
    have := length_dropWhile_le Char.isDigit rest
    simp only [List.length_cons]
    omega
  · simp

private theorem powerRun_le (cs : List Char) : (powerRun cs).2.length ≤ cs.length := by
  unfold powerRun
  split
  · rename_i rest
    have := length_dropWhile_le Char.isDigit rest
    simp only [List.length_cons]
    omega
  · rename_i rest _
    have := length_dropWhile_le Char.isDigit rest
    simp only [List.length_cons]
    omega
  · simp

private theorem number?_shorter (digit : c.isDigit) (read : number? (c :: cs) = some (token, rest)) :
    rest.length < (c :: cs).length := by
  have dropped := length_dropWhile_le Char.isDigit cs
  have whole : (c :: cs).dropWhile Char.isDigit = cs.dropWhile Char.isDigit := by simp [digit]
  have fraction := fractionRun_le ((c :: cs).dropWhile Char.isDigit)
  have power := powerRun_le (fractionRun ((c :: cs).dropWhile Char.isDigit)).2
  rw [whole] at fraction power
  unfold number? at read
  simp only [whole] at read
  simp only [List.length_cons]
  split at read
  · split at read
    · rename_i found _
      cases read
      rw [found] at power
      simp only [List.length_cons] at power
      omega
    · cases read
  · split at read
    · cases read
      omega
    · cases read

/-- A token takes up some of the text. -/
theorem next?_shorter (read : next? language cs = some (tokens, rest)) : rest.length < cs.length := by
  cases cs with
  | nil => cases read
  | cons c cs =>
    unfold next? at read
    cases symbol : symbol? c with
    | some tokens =>
      simp only [symbol] at read
      split at read
      · cases read
      · cases read
        simp
    | none =>
      simp only [symbol] at read
      split at read
      · cases text : string? language cs with
        | none => simp [text] at read
        | some found =>
          simp only [text] at read
          cases read
          have := string?_shorter text
          simp only [List.length_cons]
          omega
      · split at read
        · rename_i digit
          cases number : number? (c :: cs) with
          | none => simp [number] at read
          | some found =>
            simp only [number] at read
            cases read
            exact number?_shorter digit number
        · split at read
          · cases read
            have := length_dropWhile_le isWordChar cs
            simp only [List.length_cons]
            omega
          · cases read

private theorem scanFrom_enough (limit limit' : Nat) (fits : cs.length ≤ limit) (fits' : cs.length ≤ limit') :
    scanFrom language limit cs = scanFrom language limit' cs := by
  induction limit generalizing cs limit' with
  | zero =>
    cases cs with
    | nil => simp [scanFrom]
    | cons c cs => simp at fits
  | succ limit ih =>
    cases cs with
    | nil => simp [scanFrom]
    | cons c cs =>
      cases limit' with
      | zero => simp at fits'
      | succ limit' =>
        rw [scanFrom, scanFrom]
        cases read : next? language (c :: cs) with
        | none => rfl
        | some found =>
          have shorter := next?_shorter read
          simp only [ih limit' (by omega : found.2.length ≤ limit) (by omega)]

/-- The text is scanned token by token. -/
theorem scan_next (read : next? language cs = some (tokens, rest)) :
    scan language cs = (scan language rest).map (tokens ++ ·) := by
  have shorter := next?_shorter read
  cases cs with
  | nil => cases read
  | cons c cs =>
    rw [scan, List.length_cons, scanFrom, read]
    simp only [List.length_cons] at shorter
    simp only [scan, scanFrom_enough cs.length rest.length (by omega) (Nat.le_refl _)]

/-- Scanning from a text comes to some tokens and goes on with the rest. -/
def Goes (language : Language) (cs : List Char) (tokens : List Token) (rest : List Char) : Prop :=
  scan language cs = (scan language rest).map (tokens ++ ·)

theorem goes_trans (first : Goes language cs tokens middle) (later : Goes language middle others rest) :
    Goes language cs (tokens ++ others) rest := by
  unfold Goes at first later ⊢
  rw [first, later, Option.map_map]
  congr 1
  funext more
  simp

theorem goes_nil (cs : List Char) : Goes language cs [] cs := by
  simp [Goes]

private theorem goes_symbol (symbol : symbol? c = some tokens) (single : decrements language c rest = false) :
    Goes language (c :: rest) tokens rest := by
  apply scan_next
  simp [next?, symbol, single]

/-- Only a minus sign can run into the character behind it. -/
theorem goes_mark (c : Char) (symbol : symbol? c = some tokens) (notMinus : c ≠ '-') :
    Goes language (c :: rest) tokens rest := by
  apply goes_symbol symbol
  simp [decrements, notMinus]

/-- A minus sign is a token if no other minus sign follows. -/
theorem goes_minus (single : rest.head? ≠ some '-') : Goes language ('-' :: rest) [.operator .sub] rest := by
  apply goes_symbol rfl
  simp [decrements, single]

/-- Characters that end a word, a number and a string literal. -/
def Stops (rest : List Char) : Prop := ∀ c ∈ rest.head?, isWordChar c = false ∧ c ≠ '.' ∧ c ≠ '"'

/-- A character of a word stands for nothing else. -/
theorem word_begins (word : isWordChar c) : symbol? c = none ∧ c ≠ '"' := by
  constructor
  · unfold symbol?
    split <;> simp_all [isWordChar]
  · rintro rfl
    simp [isWordChar] at word

theorem goes_word (start : isWordChar c) (notDigit : c.isDigit = false) (inside : ∀ d ∈ cs, isWordChar d)
    (stop : ∀ d ∈ rest.head?, isWordChar d = false) :
    Goes language (c :: cs ++ rest) [.word (String.ofList (c :: cs))] rest := by
  obtain ⟨taken, dropped⟩ := span_append inside stop
  obtain ⟨noSymbol, notQuote⟩ := word_begins start
  apply scan_next
  simp [next?, noSymbol, notQuote, notDigit, start, taken, dropped]

/-! ## Numbers -/

theorem goes_number (digit : c.isDigit) (read : number? (c :: cs) = some (token, rest)) :
    Goes language (c :: cs) [token] rest := by
  obtain ⟨noSymbol, notQuote⟩ := word_begins (by simp [isWordChar, Char.isAlphanum, digit] : isWordChar c)
  apply scan_next
  simp [next?, noSymbol, notQuote, digit, read]

private theorem not_digit_of_stops (stops : Stops rest) : ∀ c ∈ rest.head?, Char.isDigit c = false := by
  intro c next
  have word := (stops c next).1
  simp only [isWordChar, Char.isAlphanum, Bool.or_eq_false_iff] at word
  exact word.1.2

theorem number?_whole (value : Nat) (rest : List Char) :
    number? (Nat.toDigits 10 value ++ 'L' :: rest) = some (.whole value, rest) := by
  have digits := spells_toDigits value
  have stop : ∀ c ∈ ('L' :: rest).head?, Char.isDigit c = false := by simp
  obtain ⟨taken, dropped⟩ := span_append digits.digit stop
  have read : Decimal.numeral? 10 (Nat.toDigits 10 value) = some value := by
    rw [numeral?_digits digits, wholeOf, Nat.ofDigitChars_ten_toDigits]
  simp [number?, taken, dropped, fractionRun, powerRun, read]

private theorem powerRun_power (spelling : Spelling) (stops : Stops rest) :
    powerRun (spelling.powerPart ++ rest) = (spelling.powerPart, rest) := by
  have stop := not_digit_of_stops stops
  cases exponent : spelling.power with
  | none =>
    have notMark : ∀ tail, rest ≠ 'e' :: tail := by
      rintro tail rfl
      have := (stops 'e' rfl).1
      simp [isWordChar] at this
    simp only [Spelling.powerPart, exponent, List.nil_append]
    unfold powerRun
    split
    · exact absurd rfl (notMark _)
    · exact absurd rfl (notMark _)
    · rfl
  | some power =>
    have digits := spells_toDigits power.natAbs
    obtain ⟨taken, dropped⟩ := span_append digits.digit stop
    obtain ⟨first, others, digitsAre, digit⟩ := spells_cons digits
    have notMinus : first ≠ '-' := by
      rintro rfl
      simp at digit
    by_cases negative : power < 0
    · simp [Spelling.powerPart, exponent, Decimal.integerText, negative, powerRun, taken, dropped]
    · simp only [Spelling.powerPart, exponent, Decimal.integerText, negative, ↓reduceIte, String.toList_ofList,
        List.cons_append]
      rw [powerRun]
      · simp only [taken, dropped]
      · rw [digitsAre]
        exact fun tail same => notMinus (List.cons.inj same).1

/-- Behind the digits of a number there is no digit. -/
theorem power_stops (spelling : Spelling) (stops : Stops rest) :
    ∀ c ∈ (spelling.powerPart ++ rest).head?, Char.isDigit c = false ∧ c ≠ '.' := by
  cases power : spelling.power with
  | none =>
    intro c next
    simp only [Spelling.powerPart, power, List.nil_append] at next
    exact ⟨not_digit_of_stops stops c next, (stops c next).2.1⟩
  | some power => simp [Spelling.powerPart, power]

private theorem fractionRun_fraction {spelling : Spelling} (float : spelling.IsFloat) (stops : Stops rest) :
    fractionRun (spelling.fractionPart ++ (spelling.powerPart ++ rest)) =
      (spelling.fractionPart, spelling.powerPart ++ rest) := by
  have stop := power_stops spelling stops
  unfold Spelling.fractionPart
  by_cases none : spelling.fraction = []
  · rw [if_pos none, List.nil_append]
    unfold fractionRun
    split
    · rename_i tail begins
      rw [begins] at stop
      exact absurd rfl (stop '.' rfl).2
    · rfl
  · obtain ⟨taken, dropped⟩ := span_append float.fraction fun c next => (stop c next).1
    rw [if_neg none, List.cons_append, fractionRun, taken, dropped]

theorem number?_spelling {spelling : Spelling} (float : spelling.IsFloat) (stops : Stops rest) :
    number? (spelling.chars ++ rest) = some (.decimal (String.ofList spelling.chars), rest) := by
  have stop : ∀ c ∈ (spelling.fractionPart ++ (spelling.powerPart ++ rest)).head?, Char.isDigit c = false := by
    unfold Spelling.fractionPart
    split
    · exact fun c next => (power_stops spelling stops c next).1
    · simp
  obtain ⟨taken, dropped⟩ := span_append float.whole.digit stop
  have chars : spelling.chars ++ rest =
      spelling.whole ++ (spelling.fractionPart ++ (spelling.powerPart ++ rest)) := by
    simp [Spelling.chars]
  have parts : ¬ (spelling.fractionPart = [] ∧ spelling.powerPart = []) := by
    rintro ⟨noFraction, noPower⟩
    rcases float.float with some | some
    · simp [Spelling.fractionPart, some] at noFraction
    · obtain ⟨power, exponent⟩ := Option.isSome_iff_exists.mp some
      simp [Spelling.powerPart, exponent] at noPower
  have read : (Decimal.scaled? (spelling.whole ++ (spelling.fractionPart ++ spelling.powerPart))).isSome := by
    have read := scaled?_chars float
    rw [Spelling.chars] at read
    simp [read]
  rw [chars]
  simp only [number?, taken, dropped, fractionRun_fraction float stops, powerRun_power spelling stops, parts, read,
    ↓reduceIte]
  rfl

/-! ## String literals -/

/-- A literal with escapes is read up to its own end, whatever its text and whatever follows. -/
theorem escapedString?_literal (text rest : List Char) :
    escapedString? (text.flatMap CSharp.literalChar ++ '"' :: rest) = some (text, rest) := by
  induction text with
  | nil => simp [escapedString?]
  | cons c text ih =>
    rw [List.flatMap_cons, List.append_assoc, CSharp.literalChar]
    by_cases special : c = '"' ∨ c = '\\' ∨ c = '\n' ∨ c = '\r' ∨ c = '\t'
    · rcases special with rfl | rfl | rfl | rfl | rfl <;> simp [escapedString?, escaped?, ih]
    · simp only [not_or] at special
      obtain ⟨notQuote, notBackslash, notFeed, notReturn, notTab⟩ := special
      simp only [notQuote, notBackslash, notFeed, notReturn, notTab, ↓reduceIte, List.singleton_append]
      rw [escapedString?]
      · simp [notBackslash, endsLine, notFeed, notReturn, ih]
      · exact notQuote
      · exact fun _ _ same => absurd same notBackslash

/-- A literal with doubled quotes is read up to its own end if no quote follows. -/
theorem doubledString?_literal (text : List Char) (oneLine : ∀ c ∈ text, endsLine c = false)
    (stop : rest.head? ≠ some '"') :
    doubledString? (text.flatMap (fun c => if c = '"' then ['"', '"'] else [c]) ++ '"' :: rest) =
      some (text, rest) := by
  induction text with
  | nil =>
    rw [List.flatMap_nil, List.nil_append, doubledString?]
    rintro rest rfl
    exact stop rfl
  | cons c text ih =>
    obtain ⟨inside, later⟩ := List.forall_mem_cons.mp oneLine
    rw [List.flatMap_cons, List.append_assoc]
    by_cases quote : c = '"'
    · subst quote
      simp [doubledString?, ih later]
    · simp only [quote, ↓reduceIte, List.singleton_append]
      rw [doubledString?]
      · simp [inside, ih later]
      · exact fun _ same => absurd same quote
      · exact quote

theorem goes_string (read : string? language cs = some (text, rest)) :
    Goes language ('"' :: cs) [.string (String.ofList text)] rest := by
  apply scan_next
  simp [next?, symbol?, read]

theorem textLines_single (oneLine : ∀ c ∈ text, endsLine c = false) : VisualBasic.textLines text = [text] := by
  induction text with
  | nil => rfl
  | cons c text ih =>
    obtain ⟨inside, later⟩ := List.forall_mem_cons.mp oneLine
    have notFeed : c ≠ '\n' := by
      rintro rfl
      simp [endsLine] at inside
    simp [VisualBasic.textLines, notFeed, ih later]

end FormulaSheet.SourceScanning
