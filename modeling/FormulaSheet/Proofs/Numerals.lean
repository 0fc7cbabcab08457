import Mathlib.Data.List.Forall2
import Mathlib.Data.Nat.Digits.Defs
import Mathlib.Tactic.IntervalCases
import Mathlib.Tactic.Ring
import FormulaSheet.Decimal.Digits

/-! Numerals in a base. What a numeral stands for is said by the places of its digits; reading gathers the value digit
by digit. It accepts exactly the non-empty runs of digits, behind a sign where one is allowed. -/
namespace FormulaSheet.Numerals
open Decimal

/-- A digit of a base and its value. From ten on digits are letters, in either case. -/
def Digit (base : Nat) (c : Char) (value : Nat) : Prop :=
  value < base ∧ (c = value.digitChar ∨ c = value.digitChar.toUpper)

instance : Decidable (Digit base c value) := inferInstanceAs (Decidable (_ ∧ _))

/-- A non-empty run of digits, with the value that their places give them. -/
structure Numeral (base : Nat) (cs : List Char) (value : Nat) : Prop where
  nonempty : cs ≠ []
  places : ∃ digits, List.Forall₂ (Digit base) cs digits ∧ value = Nat.ofDigits base digits.reverse

/-- A numeral, with or without a plus sign in front. -/
inductive Unsigned (base : Nat) : List Char → Nat → Prop where
  | bare (numeral : Numeral base cs value) : Unsigned base cs value
  | plus (numeral : Numeral base cs value) : Unsigned base ('+' :: cs) value

/-- A decimal numeral, with or without a sign in front. -/
inductive Signed : List Char → Int → Prop where
  | bare (numeral : Numeral 10 cs value) : Signed cs value
  | plus (numeral : Numeral 10 cs value) : Signed ('+' :: cs) value
  | minus (numeral : Numeral 10 cs value) : Signed ('-' :: cs) (-value)

/-! ## Digits -/

/-- The digits stand in three stretches of the code points. -/
theorem digit_of_code (first : Nat) (code : c.toNat = value + first)
    (stretch : first = 48 ∧ value < 10 ∨ (first = 55 ∨ first = 87) ∧ 10 ≤ value ∧ value < 16) : Digit 16 c value := by
  have named : c = Char.ofNat (value + first) := by rw [← code, Char.ofNat_toNat]
  rw [named]
  clear code named
  rcases stretch with ⟨rfl, small⟩ | ⟨rfl | rfl, least, most⟩
  · interval_cases value <;> decide
  · interval_cases value <;> decide
  · interval_cases value <;> decide

theorem hexValue?_eq_some_iff : hexValue? c = some value ↔ Digit 16 c value := by
  constructor
  · intro found
    simp only [hexValue?, Char.le_def, UInt32.le_iff_toNat_le, Char.toNat_val, Char.reduceToNat] at found
    split at found
    · injection found with found
      exact digit_of_code 48 (by omega) (by omega)
    · split at found
      · injection found with found
        exact digit_of_code 87 (by omega) (by omega)
      · split at found
        · injection found with found
          exact digit_of_code 55 (by omega) (by omega)
        · cases found
  · rintro ⟨small, rfl | rfl⟩
    · interval_cases value <;> rfl
    · interval_cases value <;> rfl

private theorem digitValue?_eq_some_iff (small : base ≤ 16) : digitValue? base c = some value ↔ Digit base c value := by
  rw [digitValue?, Option.filter_eq_some_iff, hexValue?_eq_some_iff, decide_eq_true_eq]
  constructor
  · rintro ⟨⟨-, spelled⟩, below⟩
    exact ⟨below, spelled⟩
  · rintro ⟨below, spelled⟩
    exact ⟨⟨by omega, spelled⟩, below⟩

/-! ## Runs of digits -/

/-- Digits behind a value that has been gathered: each moves that value up by one place. -/
theorem numeralFrom?_eq_some_iff (small : base ≤ 16) (start : Nat) :
    numeralFrom? base start cs = some value ↔
      ∃ digits, List.Forall₂ (Digit base) cs digits ∧
        value = Nat.ofDigits base digits.reverse + base ^ digits.length * start := by
  induction cs generalizing start with
  | nil => simp [numeralFrom?, eq_comm]
  | cons c cs ih =>
    have moved (digit : Nat) (digits : List Nat) :
        Nat.ofDigits base (digit :: digits).reverse + base ^ (digit :: digits).length * start =
          Nat.ofDigits base digits.reverse + base ^ digits.length * (start * base + digit) := by
      rw [List.reverse_cons, Nat.ofDigits_append, Nat.ofDigits_singleton, List.length_reverse, List.length_cons,
        Nat.pow_succ]
      ring
    rw [numeralFrom?]
    constructor
    · intro found
      split at found
      · rename_i digit first
        obtain ⟨digits, spelled, rfl⟩ := (ih _).mp found
        exact ⟨digit :: digits, .cons ((digitValue?_eq_some_iff small).mp first) spelled, (moved digit digits).symm⟩
      · cases found
    · rintro ⟨digits, spelled, rfl⟩
      cases spelled with
      | @cons _ digit _ digits first rest =>
        rw [(digitValue?_eq_some_iff small).mpr first]
        exact (ih _).mpr ⟨digits, rest, moved digit digits⟩

private theorem numeral?_eq_some_iff (small : base ≤ 16) : numeral? base cs = some value ↔ Numeral base cs value := by
  cases cs with
  | nil =>
    constructor
    · intro found
      cases found
    · intro numeral
      exact absurd rfl numeral.nonempty
  | cons c cs =>
    rw [numeral?, numeralFrom?_eq_some_iff small]
    simp only [Nat.mul_zero, Nat.add_zero]
    exact ⟨fun places => ⟨by simp, places⟩, Numeral.places⟩

/-- A numeral is made of digits only. -/
theorem Numeral.not_mem (numeral : Numeral base cs value) (small : base ≤ 16) (other : hexValue? c = none) : c ∉ cs := by
  intro member
  obtain ⟨digits, spelled, -⟩ := numeral.places
  have each := spelled.imp fun d digit (isDigit : Digit base d digit) =>
    show (hexValue? d).isSome ∧ Digit base d digit from
      ⟨Option.isSome_of_eq_some (hexValue?_eq_some_iff.mpr ⟨by have := isDigit.1; omega, isDigit.2⟩), isDigit⟩
  have isDigit := ((List.forall₂_and_left cs digits).mp each).1 c member
  rw [other] at isDigit
  cases isDigit

/-! ## Signs -/

theorem Unsigned.not_mem (number : Unsigned base cs value) (small : base ≤ 16) (other : hexValue? c = none)
    (noPlus : c ≠ '+') : c ∉ cs := by
  cases number with
  | bare numeral => exact numeral.not_mem small other
  | plus numeral => exact List.not_mem_cons_of_ne_of_not_mem noPlus (numeral.not_mem small other)

theorem unsigned?_eq_some_iff (small : base ≤ 16) : unsigned? base cs = some value ↔ Unsigned base cs value := by
  constructor
  · intro found
    unfold unsigned? at found
    split at found
    · exact .plus ((numeral?_eq_some_iff small).mp found)
    · exact .bare ((numeral?_eq_some_iff small).mp found)
  · intro unsigned
    cases unsigned with
    | plus numeral => exact (numeral?_eq_some_iff small).mpr numeral
    | bare numeral =>
      unfold unsigned?
      split
      · exact absurd List.mem_cons_self (numeral.not_mem small (show hexValue? '+' = none from rfl))
      · exact (numeral?_eq_some_iff small).mpr numeral

theorem Signed.nonempty (number : Signed cs value) : cs ≠ [] := by
  cases number with
  | bare numeral => exact numeral.nonempty
  | plus | minus => exact List.cons_ne_nil _ _

theorem Signed.not_mem (number : Signed cs value) (other : hexValue? c = none) (noPlus : c ≠ '+') (noMinus : c ≠ '-') :
    c ∉ cs := by
  cases number with
  | bare numeral => exact numeral.not_mem (by decide) other
  | plus numeral => exact List.not_mem_cons_of_ne_of_not_mem noPlus (numeral.not_mem (by decide) other)
  | minus numeral => exact List.not_mem_cons_of_ne_of_not_mem noMinus (numeral.not_mem (by decide) other)

theorem integer?_eq_some_iff : integer? cs = some value ↔ Signed cs value := by
  have read {cs : List Char} {n : Nat} : numeral? 10 cs = some n ↔ Numeral 10 cs n := numeral?_eq_some_iff (by decide)
  constructor
  · intro found
    unfold integer? at found
    split at found
    · obtain ⟨n, numeral, rfl⟩ := Option.map_eq_some_iff.mp found
      exact .plus (read.mp numeral)
    · obtain ⟨n, numeral, rfl⟩ := Option.map_eq_some_iff.mp found
      exact .minus (read.mp numeral)
    · obtain ⟨n, numeral, rfl⟩ := Option.map_eq_some_iff.mp found
      exact .bare (read.mp numeral)
  · intro signed
    cases signed with
    | plus numeral =>
      rw [integer?, read.mpr numeral]
      rfl
    | minus numeral =>
      rw [integer?, read.mpr numeral]
      rfl
    | bare numeral =>
      unfold integer?
      split
      · exact absurd List.mem_cons_self (numeral.not_mem (by decide) (show hexValue? '+' = none from rfl))
      · exact absurd List.mem_cons_self (numeral.not_mem (by decide) (show hexValue? '-' = none from rfl))
      · rw [read.mpr numeral]
        rfl

end FormulaSheet.Numerals
