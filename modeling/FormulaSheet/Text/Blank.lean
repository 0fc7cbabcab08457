/-!
White space in the sense of Unicode, and text without the white space around it.
-/

namespace FormulaSheet.Text

/-- The characters with the `White_Space` property. -/
def isBlank (c : Char) : Bool :=
  let n := c.toNat
  (0x09 ≤ n && n ≤ 0x0D) || n == 0x20 || n == 0x85 || n == 0xA0 || n == 0x1680 ||
    (0x2000 ≤ n && n ≤ 0x200A) || n == 0x2028 || n == 0x2029 || n == 0x202F || n == 0x205F ||
    n == 0x3000

/-- The text from its first character that is not blank. -/
def trimStart (cs : List Char) : List Char := cs.dropWhile isBlank

/-- The text up to its last character that is not blank. -/
def trimEnd (cs : List Char) : List Char := (cs.reverse.dropWhile isBlank).reverse

/-- The text without the blanks at both ends; blanks inside it stay. -/
def trim (cs : List Char) : List Char := trimEnd (trimStart cs)

/-- `trim` on strings. -/
def trimmed (text : String) : String := String.ofList (trim text.toList)

private theorem trim_append (cs : List Char) :
    trim cs ++ ((trimStart cs).reverse.takeWhile isBlank).reverse = trimStart cs := by
  rw [trim, trimEnd, ← List.reverse_append, List.takeWhile_append_dropWhile, List.reverse_reverse]

/-- Trimming takes blanks off both ends, and nothing else. -/
theorem trim_parts (cs : List Char) :
    ∃ front back, cs = front ++ trim cs ++ back ∧ (∀ c ∈ front, isBlank c) ∧ ∀ c ∈ back, isBlank c := by
  refine ⟨cs.takeWhile isBlank, ((trimStart cs).reverse.takeWhile isBlank).reverse, ?_, ?_, ?_⟩
  · rw [List.append_assoc, trim_append, trimStart, List.takeWhile_append_dropWhile]
  · exact List.all_eq_true.mp List.all_takeWhile
  · exact fun c member => List.all_eq_true.mp List.all_takeWhile c (List.mem_reverse.mp member)

/-- Trimming leaves no blank at either end. -/
theorem trim_ends (cs : List Char) :
    (∀ c, (trim cs).head? = some c → isBlank c = false) ∧
      ∀ c, (trim cs).getLast? = some c → isBlank c = false := by
  constructor
  · intro c first
    have begins : (trimStart cs).head? = some c := by rw [← trim_append, List.head?_append, first]; rfl
    have shown := List.head?_dropWhile_not isBlank cs
    rw [trimStart] at begins
    rw [begins] at shown
    exact shown
  · intro c last
    have shown := List.head?_dropWhile_not isBlank (trimStart cs).reverse
    rw [trim, trimEnd, List.getLast?_reverse] at last
    rw [last] at shown
    exact shown

end FormulaSheet.Text
