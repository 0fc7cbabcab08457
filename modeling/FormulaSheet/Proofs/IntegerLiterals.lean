import FormulaSheet.Formula.Number
import FormulaSheet.Proofs.DecimalLiterals
import FormulaSheet.Proofs.Numerals

/-! Integer literals. A literal is an integer exactly if it is spelled with digits and at most a sign, blanks around it
aside, and its value fits into 64 bits; that value is kept exactly. Whatever else is read is a finite float, and there a
comma is as good as a point. -/
namespace FormulaSheet.IntegerLiterals
open Text Decimal Numerals DecimalLiterals

/-- A text spells an integer: digits with or without a sign, between blanks. -/
def SpellsInteger (text : String) (value : Int) : Prop :=
  ∃ front core back, text.toList = front ++ core ++ back ∧ (∀ c ∈ front, isBlank c) ∧ (∀ c ∈ back, isBlank c) ∧
    Signed core value

/-! ## Blanks around a text -/

private theorem mem_trim (member : c ∈ cs) (shown : isBlank c = false) : c ∈ trim cs := by
  obtain ⟨front, back, parts, frontBlank, backBlank⟩ := trim_parts cs
  have outside {blanks : List Char} (blank : ∀ d ∈ blanks, isBlank d) : c ∉ blanks := by
    intro inside
    rw [blank c inside] at shown
    cases shown
  rw [parts, List.append_assoc] at member
  rcases List.mem_append.mp member with inFront | behind
  · exact absurd inFront (outside frontBlank)
  · exact (List.mem_append.mp behind).resolve_right (outside backBlank)

/-- Of a text without blanks in it, trimming takes only what stands around it. -/
theorem trim_around (nonempty : core ≠ []) (shown : ∀ c ∈ core, isBlank c = false)
    (frontBlank : ∀ c ∈ front, isBlank c) (backBlank : ∀ c ∈ back, isBlank c) :
    trim (front ++ core ++ back) = core := by
  have start : trimStart (front ++ (core ++ back)) = core ++ back := by
    refine (span_append frontBlank ?_).2
    intro c first
    rw [List.head?_append_of_ne_nil core nonempty] at first
    exact shown c (List.mem_of_mem_head? first)
  have stop : trimEnd (core ++ back) = core := by
    rw [trimEnd, List.reverse_append]
    have dropped : (back.reverse ++ core.reverse).dropWhile isBlank = core.reverse := by
      refine (span_append ?_ ?_).2
      · exact fun c member => backBlank c (List.mem_reverse.mp member)
      · exact fun c last => shown c (List.mem_reverse.mp (List.mem_of_mem_head? last))
    rw [dropped, List.reverse_reverse]
  rw [trim, List.append_assoc, start, stop]

/-- Trimming commutes with a change of characters that keeps blanks blank and makes no new ones. -/
theorem trim_map (f : Char → Char) (same : ∀ c, isBlank (f c) = isBlank c) (cs : List Char) :
    trim (cs.map f) = (trim cs).map f := by
  have blank : isBlank ∘ f = isBlank := funext same
  rw [trim, trimStart, trimEnd, List.dropWhile_map, blank, ← List.map_reverse, List.dropWhile_map, blank,
    ← List.map_reverse]
  rfl

/-! ## Integers of 64 bits -/

/-- The integers of 64 bits are read as they are spelled. -/
theorem int64?_eq_some_iff : int64? cs = some n ↔ Signed cs n.toInt := by
  rw [← integer?_eq_some_iff, int64?]
  constructor
  · intro found
    split at found
    · rename_i value read
      obtain ⟨⟨least, most⟩, same⟩ := Option.ite_none_right_eq_some.mp found
      rw [Int64.toInt_minValue] at least
      rw [Int64.toInt_maxValue] at most
      rw [read, ← Option.some.inj same, Int64.toInt_ofInt_of_le least (by omega)]
    · cases found
  · intro read
    simp only [read, Int64.minValue_le_toInt, Int64.toInt_le, and_self, ↓reduceIte, Int64.ofInt_toInt]

private theorem hexValue?_of_blank (blank : isBlank c) : hexValue? c = none := by
  by_contra digit
  obtain ⟨value, found⟩ := Option.ne_none_iff_exists'.mp digit
  obtain ⟨small, rfl | rfl⟩ := hexValue?_eq_some_iff.mp found
  · interval_cases value <;> cases blank
  · interval_cases value <;> cases blank

private theorem shown_of_signed (number : Signed core value) (member : c ∈ core) : isBlank c = false := by
  by_contra blank
  rw [Bool.not_eq_false] at blank
  have sign (d : Char) (shown : isBlank d = false) : c ≠ d := by
    rintro rfl
    rw [shown] at blank
    cases blank
  exact number.not_mem (hexValue?_of_blank blank) (sign '+' rfl) (sign '-' rfl) member

/-! ## Literals -/

private theorem spellsInteger_iff (text : String) (value : Int) :
    SpellsInteger text value ↔ Signed (trim text.toList) value := by
  constructor
  · rintro ⟨front, core, back, parts, frontBlank, backBlank, number⟩
    rw [parts, trim_around number.nonempty (fun _ => shown_of_signed number) frontBlank backBlank]
    exact number
  · intro number
    obtain ⟨front, back, parts, frontBlank, backBlank⟩ := trim_parts text.toList
    exact ⟨front, _, back, parts, frontBlank, backBlank, number⟩

private theorem ofText?_eq_integer_iff (text : String) (n : Int64) :
    Number.ofText? text = some (.integer n) ↔ SpellsInteger text n.toInt := by
  rw [spellsInteger_iff, ← int64?_eq_some_iff, Number.ofText?, Number.ofTrimmed?]
  cases int64? (trim text.toList) with
  | some value => simp
  | none =>
    dsimp only
    split
    · split <;> simp
    · simp

/-- What is no integer is a finite float or nothing. -/
theorem ofText?_cases (text : String) :
    (∃ n, Number.ofText? text = some (.integer n)) ∨ Number.ofText? text = none ∨
      ∃ x, Number.ofText? text = some (.float x) ∧ x.isFinite := by
  rw [Number.ofText?, Number.ofTrimmed?]
  cases int64? (trim text.toList) with
  | some n => exact .inl ⟨n, rfl⟩
  | none =>
    cases float? (pointed (trim text.toList)) with
    | none => exact .inr (.inl rfl)
    | some x =>
      by_cases finite : x.isFinite
      · exact .inr (.inr ⟨x, by simp [finite], finite⟩)
      · exact .inr (.inl (by simp [finite]))

/-- No integer has a comma or a point in it. -/
theorem int64?_marked (member : mark ∈ cs) (separates : mark = ',' ∨ mark = '.') : int64? (trim cs) = none := by
  cases found : int64? (trim cs) with
  | none => rfl
  | some n =>
    have number := int64?_eq_some_iff.mp found
    rcases separates with rfl | rfl
    · exact absurd (mem_trim member rfl) (number.not_mem rfl (by decide) (by decide))
    · exact absurd (mem_trim member rfl) (number.not_mem rfl (by decide) (by decide))

private theorem pointed_trim (cs : List Char) : pointed (trim cs) = trim (pointed cs) := by
  refine (trim_map _ ?_ cs).symm
  intro c
  split
  · rename_i comma
    rw [comma]
    rfl
  · rfl

/-- A comma separates the decimals as well as a point does. -/
theorem ofText?_comma (front back : String) :
    Number.ofText? (front ++ "," ++ back) = Number.ofText? (front ++ "." ++ back) := by
  have withComma : (front ++ "," ++ back).toList = front.toList ++ ',' :: back.toList := by simp
  have withPoint : (front ++ "." ++ back).toList = front.toList ++ '.' :: back.toList := by simp
  have same : pointed (trim (front.toList ++ ',' :: back.toList)) =
      pointed (trim (front.toList ++ '.' :: back.toList)) := by
    rw [pointed_trim, pointed_trim]
    simp [pointed]
  rw [Number.ofText?, Number.ofText?, withComma, withPoint, Number.ofTrimmed?, Number.ofTrimmed?,
    int64?_marked (by simp) (.inl rfl), int64?_marked (by simp) (.inr rfl), same]

/-- **Integer literals are exact.** A text is read as an integer exactly if it spells one that fits into 64 bits, and it
is read as that integer; of any other text comes a finite float or nothing. A comma may stand for a point, and the decimal
form of every integer of 64 bits is read back. -/
theorem integer_literals_are_exact (text : String) :
    (∀ n : Int64, Number.ofText? text = some (.integer n) ↔
      ∃ value, SpellsInteger text value ∧ -2 ^ 63 ≤ value ∧ value ≤ 2 ^ 63 - 1 ∧ n.toInt = value) ∧
    ((∀ value, SpellsInteger text value → value < -2 ^ 63 ∨ 2 ^ 63 - 1 < value) →
      Number.ofText? text = none ∨ ∃ x, Number.ofText? text = some (.float x) ∧ x.isFinite) ∧
    (∀ front back, text = front ++ "," ++ back → Number.ofText? text = Number.ofText? (front ++ "." ++ back)) ∧
    ∀ n : Int64, Number.ofText? (integerText n.toInt) = some (.integer n) := by
  refine ⟨?_, ?_, ?_, ?_⟩
  · intro n
    rw [ofText?_eq_integer_iff]
    constructor
    · intro spelled
      have most := n.toInt_lt
      exact ⟨n.toInt, spelled, n.le_toInt, by omega, rfl⟩
    · rintro ⟨value, spelled, -, -, rfl⟩
      exact spelled
  · intro beyond
    refine (ofText?_cases text).resolve_left ?_
    rintro ⟨n, read⟩
    have least := n.le_toInt
    have most := n.toInt_lt
    have outside := beyond n.toInt ((ofText?_eq_integer_iff text n).mp read)
    omega
  · rintro front back rfl
    exact ofText?_comma front back
  · intro n
    rw [ofText?_eq_integer_iff]
    exact ⟨[], _, [], by simp, by simp, by simp, integer?_eq_some_iff.mp (integer?_integerText n.toInt)⟩

end FormulaSheet.IntegerLiterals
