import FormulaSheet.Proofs.ShortestDecimals

/-! Literals of finite floats. A literal is spelled with digits, a point and an exponent; what it spells is the number
that the shortest digits of the float stand for. So the literal of a finite float tells the float. -/
namespace FormulaSheet.DecimalLiterals
open Decimal FloatParts ShortestDecimals

/-! ## Reading digits -/

/-- A run of characters of one kind, up to a character of another kind. -/
theorem span_append {kind : Char → Bool} {cs rest : List Char} (inside : ∀ c ∈ cs, kind c)
    (stop : ∀ c ∈ rest.head?, kind c = false) :
    (cs ++ rest).takeWhile kind = cs ∧ (cs ++ rest).dropWhile kind = rest := by
  have ends : rest.takeWhile kind = [] ∧ rest.dropWhile kind = rest := by
    cases rest with
    | nil => simp
    | cons c rest => simp [stop c rfl]
  rw [List.takeWhile_append_of_pos inside, List.dropWhile_append_of_pos inside, ends.1, ends.2, List.append_nil]
  exact ⟨rfl, rfl⟩

theorem spells_cons (digits : Spells cs) : ∃ first rest, cs = first :: rest ∧ first.isDigit := by
  obtain ⟨first, rest, rfl⟩ := List.exists_cons_of_ne_nil digits.some
  exact ⟨first, rest, rfl, digits.digit first (by simp)⟩

private theorem digitValue?_digit (digit : Char.isDigit c) : digitValue? 10 c = some (c.toNat - '0'.toNat) := by
  have bounds : '0' ≤ c ∧ c ≤ '9' := by simpa [Char.isDigit, Char.le_def] using digit
  have small : c.toNat - '0'.toNat < 10 := by
    have most : c.val.toNat ≤ 57 := UInt32.le_iff_toNat_le.mp bounds.2
    change c.val.toNat - 48 < 10
    omega
  rw [digitValue?, hexValue?, if_pos bounds]
  simpa using small

private theorem numeralFrom?_digits (digits : ∀ c ∈ cs, Char.isDigit c) (value : Nat) :
    numeralFrom? 10 value cs = some (Nat.ofDigitChars 10 cs value) := by
  induction cs generalizing value with
  | nil => rfl
  | cons c cs ih =>
    obtain ⟨digit, rest⟩ := List.forall_mem_cons.mp digits
    rw [numeralFrom?, digitValue?_digit digit, Nat.ofDigitChars_cons, Nat.mul_comm]
    exact ih rest _

theorem numeral?_digits (digits : Spells cs) : numeral? 10 cs = some (wholeOf cs) := by
  cases cs with
  | nil => exact absurd rfl digits.some
  | cons c cs => exact numeralFrom?_digits digits.digit 0

theorem spells_toDigits (n : Nat) : Spells (Nat.toDigits 10 n) :=
  ⟨Nat.toDigits_ne_nil, fun _ member => Nat.isDigit_of_mem_toDigits (by omega) (by omega) member⟩

/-- An integer is read back from its decimal form. -/
theorem integer?_integerText (value : Int) : integer? (integerText value).toList = some value := by
  have read : numeral? 10 (Nat.toDigits 10 value.natAbs) = some value.natAbs := by
    rw [numeral?_digits (spells_toDigits _), wholeOf, Nat.ofDigitChars_ten_toDigits]
  rw [integerText, String.toList_ofList]
  by_cases negative : value < 0
  · simp only [negative, ↓reduceIte, integer?, read, Option.map_some]
    congr 1
    simp only [Int.ofNat_eq_natCast]
    omega
  · simp only [negative, ↓reduceIte]
    obtain ⟨first, rest, digits, digit⟩ := spells_cons (spells_toDigits value.natAbs)
    rw [digits] at read ⊢
    unfold integer?
    split
    · rename_i plus
      cases plus
      simp at digit
    · rename_i minus
      cases minus
      simp at digit
    · rw [read]
      simp only [Option.map_some, Int.ofNat_eq_natCast]
      congr 1
      omega

/-! ## Spellings -/

/-- How a literal without its sign is spelled: digits, a point with digits behind it, an exponent. -/
structure Spelling where
  whole : List Char
  fraction : List Char
  power : Option Int

namespace Spelling

/-- The decimals behind their point, if there are any. -/
def fractionPart (spelling : Spelling) : List Char :=
  if spelling.fraction = [] then [] else '.' :: spelling.fraction

/-- The exponent behind its mark, if there is one. -/
def powerPart (spelling : Spelling) : List Char :=
  match spelling.power with
  | none => []
  | some power => 'e' :: (integerText power).toList

def chars (spelling : Spelling) : List Char :=
  spelling.whole ++ (spelling.fractionPart ++ spelling.powerPart)

/-- A spelling is recognised as floating point: it has decimals or an exponent. -/
structure IsFloat (spelling : Spelling) : Prop where
  whole : Spells spelling.whole
  fraction : ∀ c ∈ spelling.fraction, c.isDigit
  float : spelling.fraction ≠ [] ∨ spelling.power.isSome

/-- The decimal that is spelled. -/
def scaled (spelling : Spelling) : Scaled :=
  ⟨wholeOf (spelling.whole ++ spelling.fraction), spelling.power.getD 0 - spelling.fraction.length⟩

end Spelling

theorem scaled?_chars {spelling : Spelling} (float : spelling.IsFloat) :
    scaled? spelling.chars = some spelling.scaled := by
  obtain ⟨whole, fraction, power⟩ := spelling
  obtain ⟨wholeDigits, fractionDigits, -⟩ := float
  have powerStop : ∀ c ∈ (Spelling.powerPart ⟨whole, fraction, power⟩).head?, Char.isDigit c = false := by
    cases power <;> simp [Spelling.powerPart]
  have powerRead : exponent? (Spelling.powerPart ⟨whole, fraction, power⟩) = some (power.getD 0) := by
    cases power with
    | none => rfl
    | some power => simp [Spelling.powerPart, exponent?, integer?_integerText]
  have digits : numeral? 10 (whole ++ fraction) = some (wholeOf (whole ++ fraction)) :=
    numeral?_digits ⟨by simp [wholeDigits.some], fun c member =>
      (List.mem_append.mp member).elim (wholeDigits.digit c) (fractionDigits c)⟩
  have wholeStop : ∀ c ∈ (Spelling.fractionPart ⟨whole, fraction, power⟩ ++
      Spelling.powerPart ⟨whole, fraction, power⟩).head?, Char.isDigit c = false := by
    unfold Spelling.fractionPart
    split
    · simpa using powerStop
    · simp
  obtain ⟨taken, dropped⟩ := span_append wholeDigits.digit wholeStop
  unfold scaled? Spelling.chars
  simp only [taken, dropped]
  by_cases none : fraction = []
  · subst none
    rw [List.append_nil] at digits
    cases power with
    | none =>
      simp only [Spelling.fractionPart, Spelling.powerPart, ↓reduceIte, List.append_nil, digits] at powerRead ⊢
      simp [powerRead, Spelling.scaled]
    | some power =>
      simp only [Spelling.fractionPart, Spelling.powerPart, ↓reduceIte, List.nil_append] at powerRead ⊢
      simp [powerRead, digits, Spelling.scaled]
  · obtain ⟨taken, dropped⟩ := span_append fractionDigits powerStop
    simp only [Spelling.fractionPart, none, ↓reduceIte, List.cons_append, taken, dropped, digits, powerRead]
    rfl

/-! ## The literal of a float -/

/-- The literal of a float without its sign. -/
def sizeText (x : Float) : String :=
  if literal.least ≤ (shortest x).exponent && (shortest x).exponent ≤ literal.greatest then
    literal.positional (shortest x)
  else literal.exponential (shortest x)

theorem text_of_finite (finite : Float.isFinite x) :
    literal.text x = if isNegative x then "-" ++ sizeText x else sizeText x := by
  simp only [Layout.text, not_nan_of_finite finite, not_inf_of_finite finite, sizeText, Bool.false_eq_true, ↓reduceIte]

/-- The number of a spelling. -/
def Spelling.number (spelling : Spelling) : ℚ := spelling.scaled.coefficient * 10 ^ spelling.scaled.exponent

private theorem spelled_exponential (digits : Spells x.digits) :
    ∃ spelling : Spelling, spelling.IsFloat ∧ (literal.exponential x).toList = spelling.chars ∧
      spelling.number = numberOf x := by
  obtain ⟨first, rest, digitsAre⟩ := List.exists_cons_of_ne_nil digits.some
  have inDigits : ∀ c ∈ first :: rest, Char.isDigit c := digitsAre ▸ digits.digit
  obtain ⟨firstDigit, restDigits⟩ := List.forall_mem_cons.mp inDigits
  refine ⟨⟨[first], rest, some x.exponent⟩, ⟨⟨by simp, by simpa using firstDigit⟩, restDigits, .inr rfl⟩, ?_, ?_⟩
  · have width : 1 - (Nat.toDigits 10 x.exponent.natAbs).length = 0 := by
      have := Nat.length_toDigits_pos (b := 10) (n := x.exponent.natAbs)
      omega
    by_cases none : rest = [] <;> by_cases negative : x.exponent < 0 <;>
      simp [Layout.exponential, literal, digitsAre, width, Spelling.chars, Spelling.fractionPart, Spelling.powerPart,
        integerText, none, negative]
  · simp only [Spelling.number, Spelling.scaled, numberOf, digitsAre, List.singleton_append, Option.getD_some,
      List.length_cons]
    congr 2
    omega

private theorem wholeOf_zeros (count : Nat) (digits : List Char) :
    wholeOf (List.replicate count '0' ++ digits) = wholeOf digits := by
  rw [wholeOf, Nat.ofDigitChars_append, Nat.ofDigitChars_replicate_zero, Nat.mul_zero]

private theorem wholeOf_append_zeros (digits : List Char) (count : Nat) :
    wholeOf (digits ++ List.replicate count '0') = wholeOf digits * 10 ^ count := by
  rw [wholeOf, Nat.ofDigitChars_append, Nat.ofDigitChars_replicate_zero, Nat.mul_comm]

private theorem spelled_positional (digits : Spells x.digits) :
    ∃ spelling : Spelling, spelling.IsFloat ∧ (literal.positional x).toList = spelling.chars ∧
      spelling.number = numberOf x := by
  have zeroDigit (count : Nat) : ∀ c ∈ List.replicate count '0', Char.isDigit c := by
    intro c member
    rw [List.eq_of_mem_replicate member]
    rfl
  unfold Layout.positional
  by_cases negative : x.exponent < 0
  · refine ⟨⟨['0'], List.replicate (x.exponent.natAbs - 1) '0' ++ x.digits, none⟩,
      ⟨⟨by simp, zeroDigit 1⟩, ?_, .inl (by simp [digits.some])⟩, ?_, ?_⟩
    · exact List.forall_mem_append.mpr ⟨zeroDigit _, digits.digit⟩
    · simp [negative, Spelling.chars, Spelling.fractionPart, Spelling.powerPart, digits.some]
    · have leading : wholeOf (['0'] ++ (List.replicate (x.exponent.natAbs - 1) '0' ++ x.digits)) = wholeOf x.digits :=
        (wholeOf_zeros 1 _).trans (wholeOf_zeros _ _)
      simp only [Spelling.number, Spelling.scaled, numberOf, leading, List.length_append, List.length_replicate,
        Option.getD_none]
      congr 2
      omega
  · simp only [negative, ↓reduceIte]
    by_cases whole : x.digits.length ≤ x.exponent.natAbs + 1
    · refine ⟨⟨x.digits ++ List.replicate (x.exponent.natAbs + 1 - x.digits.length) '0', ['0'], none⟩,
        ⟨⟨by simp [digits.some], ?_⟩, zeroDigit 1, .inl (by simp)⟩, ?_, ?_⟩
      · exact List.forall_mem_append.mpr ⟨digits.digit, zeroDigit _⟩
      · simp [whole, literal, Spelling.chars, Spelling.fractionPart, Spelling.powerPart]
      · have trailing : wholeOf (x.digits ++ List.replicate (x.exponent.natAbs + 1 - x.digits.length) '0' ++ ['0']) =
            wholeOf x.digits * 10 ^ (x.exponent.natAbs + 1 - x.digits.length) * 10 ^ 1 := by
          rw [← wholeOf_append_zeros, ← wholeOf_append_zeros]
          rfl
        have power : x.exponent + 1 - x.digits.length = (x.exponent.natAbs + 1 - x.digits.length : Nat) := by omega
        simp only [Spelling.number, Spelling.scaled, numberOf, trailing, power, zpow_natCast]
        push_cast
        norm_num
        ring
    · have more : x.exponent.natAbs + 1 < x.digits.length := by omega
      refine ⟨⟨x.digits.take (x.exponent.natAbs + 1), x.digits.drop (x.exponent.natAbs + 1), none⟩,
        ⟨⟨?_, ?_⟩, ?_, .inl ?_⟩, ?_, ?_⟩
      · simp [digits.some]
      · exact fun c member => digits.digit c (List.mem_of_mem_take member)
      · exact fun c member => digits.digit c (List.mem_of_mem_drop member)
      · simp only [ne_eq, List.drop_eq_nil_iff]
        omega
      · simp [whole, Spelling.chars, Spelling.fractionPart, Spelling.powerPart]
      · simp only [Spelling.number, Spelling.scaled, numberOf, List.take_append_drop, List.length_drop,
          Option.getD_none]
        congr 2
        omega

/-- The literal of a finite float without its sign is a spelling of a number that stands for the float. -/
theorem spelled_size (x : Float) :
    ∃ spelling : Spelling, spelling.IsFloat ∧ (sizeText x).toList = spelling.chars ∧
      Denotes (binaryParts x).1 (binaryParts x).2 spelling.number := by
  obtain ⟨digits, denotes⟩ := shortest_denotes x
  unfold sizeText
  split
  · obtain ⟨spelling, float, spelled, number⟩ := spelled_positional digits
    exact ⟨spelling, float, spelled, number ▸ denotes⟩
  · obtain ⟨spelling, float, spelled, number⟩ := spelled_exponential digits
    exact ⟨spelling, float, spelled, number ▸ denotes⟩

/-- The literal without its sign tells the size of a float. -/
theorem binaryParts_of_sizeText (same : sizeText x = sizeText y) : binaryParts x = binaryParts y := by
  obtain ⟨spelling, float, spelled, denotes⟩ := spelled_size x
  obtain ⟨spelling', float', spelled', denotes'⟩ := spelled_size y
  have read : spelling.scaled = spelling'.scaled := by
    have chars : spelling.chars = spelling'.chars := by rw [← spelled, ← spelled', same]
    have texts := scaled?_chars float
    rw [chars, scaled?_chars float'] at texts
    exact (Option.some.inj texts).symm
  have number : spelling.number = spelling'.number := by rw [Spelling.number, Spelling.number, read]
  obtain ⟨significand, exponent⟩ :=
    denotes_unique (represented_binaryParts x) (represented_binaryParts y) denotes (number ▸ denotes')
  exact Prod.ext significand exponent

theorem eq_of_sizeText (sign : isNegative x = isNegative y) (size : sizeText x = sizeText y) : x = y :=
  eq_of_parts sign (binaryParts_of_sizeText size)

theorem sizeText_neg (finite : Float.isFinite x) : sizeText (-x) = sizeText x := by
  simp only [sizeText, shortest, binaryParts_neg finite]

end FormulaSheet.DecimalLiterals
