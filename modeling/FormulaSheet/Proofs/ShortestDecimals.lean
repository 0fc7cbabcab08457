import FormulaSheet.Decimal.Reading
import FormulaSheet.Proofs.FloatParts

/-! The shortest digits of a float stand for it and for no other float. Every float is the middle of an interval of
numbers that round to it, and the search for digits ends inside: with seventeen digits, the whole numbers lie closer
to each other than the ends of the interval. The intervals of two floats have no number in common, since of two
floats next to each other only the one with the even significand takes the end between them. -/
namespace FormulaSheet.ShortestDecimals
open Decimal FloatParts

/-! ## Intervals -/

/-- How far an interval reaches down, in quarters of the unit: below a power of two only half as far as above it. -/
def reach (significand : Nat) : Nat := if significand = leadingBit then 1 else 2

/-- The interval of a significand, with `factor / denominator` for a quarter of the unit. -/
def quarters (significand factor denominator : Nat) : Rounding where
  below := (4 * significand - reach significand) * factor
  value := 4 * significand * factor
  above := (4 * significand + 2) * factor
  denominator
  closed := significand % 2 = 0

/-- Numbers that round to a significand. The ends of the interval round to it if it is even. -/
def RoundsTo (significand : Nat) (quarter number : ℚ) : Prop :=
  if significand % 2 = 0 then
    ((4 * significand - reach significand : Nat) : ℚ) * quarter ≤ number ∧
      number ≤ ((4 * significand + 2 : Nat) : ℚ) * quarter
  else
    ((4 * significand - reach significand : Nat) : ℚ) * quarter < number ∧
      number < ((4 * significand + 2 : Nat) : ℚ) * quarter

private theorem roundsTo_scale (positive : 0 < scale) :
    RoundsTo significand (quarter * scale) (number * scale) ↔ RoundsTo significand quarter number := by
  simp only [RoundsTo, ← mul_assoc, mul_le_mul_iff_left₀ positive, mul_lt_mul_iff_left₀ positive]

private theorem holds_quarters {denominator : Nat} (positive : 0 < denominator) (candidate : Nat) :
    (quarters significand factor denominator).holds candidate ↔
      RoundsTo significand ((factor : ℚ) / denominator) candidate := by
  have cast : (0 : ℚ) < denominator := by exact_mod_cast positive
  have inner : (candidate : ℚ) = (candidate * denominator : Nat) / (denominator : ℚ) := by
    push_cast
    field_simp
  unfold RoundsTo Rounding.holds quarters
  rw [inner]
  simp only [← mul_div_assoc, div_le_div_iff_of_pos_right cast, div_lt_div_iff_of_pos_right cast]
  by_cases even : significand % 2 = 0
  · simp only [even, decide_true, ↓reduceIte, Bool.and_eq_true, decide_eq_true_eq]
    norm_cast
  · simp only [even, decide_false, Bool.false_eq_true, ↓reduceIte, Bool.and_eq_true, decide_eq_true_eq]
    norm_cast

private theorem ofBinary_eq_quarters (significand : Nat) (exponent : Int) :
    ∃ factor denominator : Nat, 0 < factor ∧ 0 < denominator ∧ (factor : ℚ) / denominator = 2 ^ (exponent - 2) ∧
      Rounding.ofBinary significand exponent = quarters significand factor denominator := by
  by_cases negative : exponent - 2 < 0
  · refine ⟨1, 2 ^ (exponent - 2).natAbs, one_pos, by positivity, ?_, ?_⟩
    · push_cast
      rw [one_div, ← zpow_natCast, ← zpow_neg]
      congr 1
      omega
    · simp [Rounding.ofBinary, quarters, reach, negative]
  · refine ⟨2 ^ (exponent - 2).natAbs, 1, by positivity, one_pos, ?_, ?_⟩
    · push_cast
      rw [div_one, ← zpow_natCast]
      congr 1
      omega
    · simp [Rounding.ofBinary, quarters, reach, negative]

private theorem scale_quarters {factor denominator : Nat} (significand : Nat) (power : Int) (positive : 0 < factor)
    (divides : 0 < denominator) :
    ∃ factor' denominator' : Nat, 0 < factor' ∧ 0 < denominator' ∧
      (factor' : ℚ) / denominator' = factor / denominator * 10 ^ power ∧
      (quarters significand factor denominator).scale power = quarters significand factor' denominator' := by
  by_cases negative : power < 0
  · refine ⟨factor, denominator * 10 ^ power.natAbs, positive, by positivity, ?_, ?_⟩
    · have inverse : (10 : ℚ) ^ power = (10 ^ power.natAbs)⁻¹ := by
        rw [← zpow_natCast, ← zpow_neg]
        congr 1
        omega
      push_cast
      rw [inverse]
      field_simp
    · simp [Rounding.scale, quarters, negative]
  · refine ⟨factor * 10 ^ power.natAbs, denominator, by positivity, divides, ?_, ?_⟩
    · have same : (10 : ℚ) ^ power = 10 ^ power.natAbs := by
        rw [← zpow_natCast]
        congr 1
        omega
      push_cast
      rw [same]
      field_simp
    · simp [Rounding.scale, quarters, negative, Nat.mul_assoc]

/-! ## Seventeen digits -/

private theorem holds_of_inside {r : Rounding} (low : r.below < candidate * r.denominator)
    (high : candidate * r.denominator < r.above) : r.holds candidate := by
  unfold Rounding.holds
  split <;> simp <;> omega

private theorem nearest?_isSome {r : Rounding}
    (near : r.holds (r.value / r.denominator) ∨ r.holds (r.value / r.denominator + 1)) : r.nearest?.isSome := by
  simp only [Rounding.nearest?]
  cases down : r.holds (r.value / r.denominator) <;> cases up : r.holds (r.value / r.denominator + 1) <;>
    simp_all

private theorem nearest?_holds {r : Rounding} (found : r.nearest? = some candidate) : r.holds candidate := by
  simp only [Rounding.nearest?] at found
  cases down : r.holds (r.value / r.denominator) <;> cases up : r.holds (r.value / r.denominator + 1) <;>
    simp only [down, up, Option.some.injEq, reduceCtorEq] at found
  · exact found ▸ up
  · exact found ▸ down
  · split at found
    · exact found ▸ down
    · exact found ▸ up

/-- Among whole numbers of seventeen digits, one of the two next to the value lies in the interval. -/
theorem nearest?_of_large {significand factor denominator : Nat} (fits : significand < 9007199254740992)
    (positive : 0 < factor) (divides : 0 < denominator)
    (large : 10000000000000000 * denominator ≤ 4 * significand * factor) :
    (quarters significand factor denominator).nearest?.isSome := by
  have split := Nat.div_add_mod (4 * significand * factor) denominator
  have less := Nat.mod_lt (4 * significand * factor) divides
  have bounded : significand * factor ≤ 9007199254740991 * factor := Nat.mul_le_mul_right factor (by omega)
  have next (n : Nat) : (n + 1) * denominator = denominator * n + denominator := by
    rw [Nat.add_mul, Nat.one_mul, Nat.mul_comm]
  apply nearest?_isSome
  by_cases leading : significand = leadingBit
  · refine .inr (holds_of_inside ?_ ?_)
    · simp only [quarters, reach, leading, ↓reduceIte, next, Nat.sub_mul]
      rw [leading] at split less large
      omega
    · simp only [quarters, leading, next, Nat.add_mul]
      rw [leading, leadingBit_eq] at split less large
      rw [leadingBit_eq]
      omega
  · have lower : (4 * significand - 2) * factor = 4 * significand * factor - 2 * factor := Nat.sub_mul ..
    have upper : (4 * significand + 2) * factor = 4 * significand * factor + 2 * factor := Nat.add_mul ..
    have product : 4 * significand * factor = 4 * (significand * factor) := Nat.mul_assoc ..
    by_cases nearer : 2 * (4 * significand * factor % denominator) ≤ denominator
    · refine .inl (holds_of_inside ?_ ?_)
      · simp only [quarters, reach, leading, ↓reduceIte, lower]
        rw [Nat.mul_comm _ denominator]
        omega
      · simp only [quarters, upper]
        rw [Nat.mul_comm _ denominator]
        omega
    · refine .inr (holds_of_inside ?_ ?_)
      · simp only [quarters, reach, leading, ↓reduceIte, lower, next]
        omega
      · simp only [quarters, upper, next]
        omega

/-- The power of ten that the search starts from is at most the value. -/
theorem magnitude_le {r : Rounding} (positive : 0 < r.value) (divides : 0 < r.denominator) :
    (10 : ℚ) ^ r.magnitude ≤ (r.value : ℚ) / r.denominator := by
  have cast : (0 : ℚ) < r.denominator := by exact_mod_cast divides
  unfold Rounding.magnitude digitCount
  split
  · rename_i whole
    have counted := Nat.length_toDigits_pos (b := 10) (n := r.value / r.denominator)
    have reached : 10 ^ ((Nat.toDigits 10 (r.value / r.denominator)).length - 1) ≤ r.value / r.denominator := by
      by_cases single : (Nat.toDigits 10 (r.value / r.denominator)).length - 1 = 0
      · rw [single, Nat.pow_zero]
        exact Nat.div_pos whole divides
      · by_contra short
        have fewer := (Nat.length_toDigits_le_iff (by omega) (Nat.pos_of_ne_zero single)).mpr (Nat.lt_of_not_le short)
        omega
    have power : ((Nat.toDigits 10 (r.value / r.denominator)).length : Int) - 1 =
        ((Nat.toDigits 10 (r.value / r.denominator)).length - 1 : Nat) := by omega
    rw [power, zpow_natCast]
    calc (10 : ℚ) ^ ((Nat.toDigits 10 (r.value / r.denominator)).length - 1)
        ≤ ((r.value / r.denominator : Nat) : ℚ) := by exact_mod_cast reached
      _ ≤ (r.value : ℚ) / r.denominator := Nat.cast_div_le
  · rename_i fraction
    generalize inverse : (r.denominator + r.value - 1) / r.value - 1 = n
    have counted := Nat.length_toDigits_pos (b := 10) (n := n)
    have below := (Nat.length_toDigits_le_iff (n := n) (by omega) counted).mp (Nat.le_refl _)
    have covered : r.denominator ≤ (n + 1) * r.value := by
      have split := Nat.div_add_mod (r.denominator + r.value - 1) r.value
      have less := Nat.mod_lt (r.denominator + r.value - 1) positive
      have whole : 1 ≤ (r.denominator + r.value - 1) / r.value := Nat.div_pos (by omega) positive
      have count : n + 1 = (r.denominator + r.value - 1) / r.value := by omega
      rw [count, Nat.mul_comm]
      omega
    have reached : r.denominator ≤ 10 ^ (Nat.toDigits 10 n).length * r.value :=
      Nat.le_trans covered (Nat.mul_le_mul_right _ below)
    rw [zpow_neg, zpow_natCast, le_div_iff₀ cast, inv_mul_le_iff₀ (by positivity)]
    exact_mod_cast reached

private theorem search_isSome (r : Rounding) (magnitude : Int) (count tries : Nat)
    (hit : ∃ k < tries, (r.scale ((count + k : Nat) - 1 - magnitude)).nearest?.isSome) :
    (r.search magnitude count tries).isSome := by
  induction tries generalizing count with
  | zero =>
    obtain ⟨k, none, -⟩ := hit
    omega
  | succ tries ih =>
    rw [Rounding.search]
    cases tried : (r.scale (count - 1 - magnitude)).nearest? with
    | some candidate => rfl
    | none =>
      apply ih
      obtain ⟨k, within, near⟩ := hit
      cases k with
      | zero => simp [tried] at near
      | succ k => exact ⟨k, by omega, by rw [Nat.add_right_comm]; exact near⟩

/-- The search ends with a whole number in the interval, on some power of ten. -/
theorem search_found {r : Rounding} (found : r.search magnitude count tries = some result) :
    ∃ (grid candidate : Nat), (r.scale (grid - 1 - magnitude)).holds candidate ∧
      result = ⟨((Nat.toDigits 10 candidate).reverse.dropWhile (· = '0')).reverse,
        magnitude - (grid - 1) + ((Nat.toDigits 10 candidate).length - 1)⟩ := by
  induction tries generalizing count with
  | zero => simp [Rounding.search] at found
  | succ tries ih =>
    rw [Rounding.search] at found
    cases tried : (r.scale (count - 1 - magnitude)).nearest? with
    | none =>
      simp only [tried] at found
      exact ih found
    | some candidate =>
      simp only [tried, Option.some.injEq] at found
      exact ⟨count, candidate, nearest?_holds tried, found.symm⟩

/-! ## Digits -/

/-- The whole number that digits spell. -/
abbrev wholeOf (digits : List Char) : Nat := Nat.ofDigitChars 10 digits 0

/-- The number that digits and the power of ten of the first one stand for. -/
def numberOf (x : Scientific) : ℚ := wholeOf x.digits * 10 ^ (x.exponent + 1 - x.digits.length)

/-- Digits without the zeros at their end. -/
theorem stripped_append (digits : List Char) :
    ∃ count, digits = (digits.reverse.dropWhile (· = '0')).reverse ++ List.replicate count '0' := by
  refine ⟨(digits.reverse.takeWhile (· = '0')).length, ?_⟩
  have zeros : digits.reverse.takeWhile (· = '0') =
      List.replicate (digits.reverse.takeWhile (· = '0')).length '0' := by
    rw [List.eq_replicate_iff]
    exact ⟨rfl, fun c member => by simpa using List.all_eq_true.mp List.all_takeWhile c member⟩
  rw [← List.reverse_inj, List.reverse_append, List.reverse_reverse, List.reverse_replicate, ← zeros,
    List.takeWhile_append_dropWhile]

/-- A whole number without the zeros at its end, each of which counts for a power of ten. -/
theorem wholeOf_stripped (candidate : Nat) :
    ∃ count, (Nat.toDigits 10 candidate).length =
        ((Nat.toDigits 10 candidate).reverse.dropWhile (· = '0')).reverse.length + count ∧
      candidate = wholeOf ((Nat.toDigits 10 candidate).reverse.dropWhile (· = '0')).reverse * 10 ^ count := by
  obtain ⟨count, whole⟩ := stripped_append (Nat.toDigits 10 candidate)
  refine ⟨count, ?_, ?_⟩
  · have lengths := congrArg List.length whole
    simpa only [List.length_append, List.length_replicate] using lengths
  · have read := congrArg wholeOf whole
    rw [wholeOf, Nat.ofDigitChars_ten_toDigits, wholeOf, Nat.ofDigitChars_append,
      Nat.ofDigitChars_replicate_zero] at read
    exact read.trans (Nat.mul_comm ..)

/-- Digits that spell a number: there are some, and nothing else. -/
structure Spells (digits : List Char) : Prop where
  some : digits ≠ []
  digit : ∀ c ∈ digits, c.isDigit

private theorem numberOf_found (candidate : Nat) (power : Int) :
    numberOf ⟨((Nat.toDigits 10 candidate).reverse.dropWhile (· = '0')).reverse,
      power + ((Nat.toDigits 10 candidate).length - 1)⟩ = candidate * 10 ^ power := by
  obtain ⟨count, length, whole⟩ := wholeOf_stripped candidate
  generalize ((Nat.toDigits 10 candidate).reverse.dropWhile (· = '0')).reverse = digits at length whole ⊢
  have exponent : power + (((Nat.toDigits 10 candidate).length : Int) - 1) + 1 - digits.length = count + power := by
    omega
  rw [numberOf, exponent, zpow_add₀ (by norm_num), zpow_natCast, ← mul_assoc]
  congr 1
  rw [whole]
  push_cast
  rfl

private theorem spells_found (positive : candidate ≠ 0) :
    Spells ((Nat.toDigits 10 candidate).reverse.dropWhile (· = '0')).reverse := by
  constructor
  · intro empty
    obtain ⟨count, -, whole⟩ := wholeOf_stripped candidate
    rw [empty] at whole
    exact positive (by simpa [wholeOf] using whole)
  · intro c member
    rw [List.mem_reverse] at member
    have inner := (List.dropWhile_suffix _).subset member
    exact Nat.isDigit_of_mem_toDigits (by omega) (by omega) (List.mem_reverse.mp inner)

/-! ## Shortest digits -/

private theorem roundsTo_pos (positive : 0 < significand) (unit : 0 < quarter)
    (rounds : RoundsTo significand quarter number) : 0 < number := by
  have low : 0 < 4 * significand - reach significand := by
    unfold reach
    split <;> omega
  have bound : (0 : ℚ) < ((4 * significand - reach significand : Nat) : ℚ) * quarter :=
    mul_pos (by exact_mod_cast low) unit
  unfold RoundsTo at rounds
  split at rounds
  · exact lt_of_lt_of_le bound rounds.1
  · exact lt_trans bound rounds.1

/-- What a decimal has to be to stand for a float: zero for zero, and otherwise a number that rounds to it. -/
def Denotes (significand : Nat) (exponent : Int) (number : ℚ) : Prop :=
  if significand = 0 then number = 0 else RoundsTo significand (2 ^ (exponent - 2)) number

/-- With seventeen digits the search finds a number, whatever the size of the value. -/
theorem search_succeeds {significand factor denominator : Nat} (nonzero : significand ≠ 0)
    (fits : significand < 9007199254740992) (positive : 0 < factor) (divides : 0 < denominator) :
    ((quarters significand factor denominator).search
      (quarters significand factor denominator).magnitude 1 17).isSome := by
  have value : 0 < (quarters significand factor denominator).value := by
    have := Nat.pos_of_ne_zero nonzero
    simp only [quarters]
    positivity
  have reached := magnitude_le value divides
  generalize (quarters significand factor denominator).magnitude = magnitude at reached ⊢
  apply search_isSome
  obtain ⟨factor', denominator', positive', divides', unit, scaled⟩ :=
    scale_quarters significand (((1 + 16 : Nat) : Int) - 1 - magnitude) positive divides
  refine ⟨16, by omega, ?_⟩
  rw [scaled]
  apply nearest?_of_large fits positive' divides'
  have cast : (0 : ℚ) < denominator' := by exact_mod_cast divides'
  have large : (10000000000000000 : ℚ) ≤ 4 * significand * (factor' / denominator') := by
    calc (10000000000000000 : ℚ) = 10 ^ magnitude * 10 ^ (((1 + 16 : Nat) : Int) - 1 - magnitude) := by
          rw [← zpow_add₀ (by norm_num)]
          norm_num
      _ ≤ ((quarters significand factor denominator).value : ℚ) / denominator *
            10 ^ (((1 + 16 : Nat) : Int) - 1 - magnitude) := by gcongr; exact reached
      _ = 4 * significand * (factor' / denominator') := by
          rw [unit]
          simp only [quarters]
          push_cast
          ring
  rw [← mul_div_assoc, le_div_iff₀ cast] at large
  exact_mod_cast large

/-- The shortest digits of a float stand for it. -/
theorem shortest_denotes (x : Float) :
    Spells (shortest x).digits ∧ Denotes (binaryParts x).1 (binaryParts x).2 (numberOf (shortest x)) := by
  have represented := represented_binaryParts x
  unfold shortest
  generalize binaryParts x = parts at represented ⊢
  obtain ⟨significand, exponent⟩ := parts
  simp only at represented ⊢
  by_cases zero : significand = 0
  · simp only [zero, ↓reduceIte, Denotes]
    exact ⟨⟨by simp, by simp⟩, by simp [numberOf, wholeOf, Nat.ofDigitChars_cons, Nat.ofDigitChars_nil]⟩
  · simp only [zero, ↓reduceIte, Denotes]
    obtain ⟨factor, denominator, positive, divides, unit, ofBinary⟩ := ofBinary_eq_quarters significand exponent
    rw [ofBinary, ← unit]
    obtain ⟨result, found⟩ := Option.isSome_iff_exists.mp (search_succeeds zero represented.fits positive divides)
    rw [found, Option.getD_some]
    obtain ⟨grid, candidate, holds, rfl⟩ := search_found found
    generalize (quarters significand factor denominator).magnitude = magnitude at holds ⊢
    obtain ⟨factor', denominator', -, divides', unit', scaled⟩ :=
      scale_quarters significand ((grid : Int) - 1 - magnitude) positive divides
    rw [scaled, holds_quarters divides', unit'] at holds
    have number : (candidate : ℚ) =
        candidate * 10 ^ (magnitude - (grid - 1)) * 10 ^ ((grid : Int) - 1 - magnitude) := by
      rw [mul_assoc, ← zpow_add₀ (by norm_num)]
      simp
    rw [number, roundsTo_scale (by positivity)] at holds
    rw [numberOf_found]
    refine ⟨spells_found ?_, holds⟩
    rintro rfl
    have apart := roundsTo_pos (Nat.pos_of_ne_zero zero) (by rw [unit]; positivity) holds
    simp at apart

/-! ## Intervals of different floats -/

private theorem roundsTo_bounds (rounds : RoundsTo significand quarter number) :
    ((4 * significand - reach significand : Nat) : ℚ) * quarter ≤ number ∧
      number ≤ ((4 * significand + 2 : Nat) : ℚ) * quarter ∧
      (significand % 2 = 1 → ((4 * significand - reach significand : Nat) : ℚ) * quarter < number ∧
        number < ((4 * significand + 2 : Nat) : ℚ) * quarter) := by
  unfold RoundsTo at rounds
  split at rounds
  · exact ⟨rounds.1, rounds.2, fun odd => by omega⟩
  · exact ⟨rounds.1.le, rounds.2.le, fun _ => rounds⟩

/-- No number rounds to a float and to a greater one. -/
theorem not_roundsTo_both {significand significand' : Nat} {exponent exponent' : Int}
    (represented : Represented significand exponent) (represented' : Represented significand' exponent')
    (less : exponent < exponent' ∨ exponent = exponent' ∧ significand < significand')
    (rounds : RoundsTo significand (2 ^ (exponent - 2)) number) :
    ¬ RoundsTo significand' (2 ^ (exponent' - 2)) number := by
  intro rounds'
  obtain ⟨-, high, strict⟩ := roundsTo_bounds rounds
  obtain ⟨low, -, strict'⟩ := roundsTo_bounds rounds'
  have unit : (0 : ℚ) < 2 ^ (exponent - 2) := by positivity
  have reached : reach significand' = 1 ∧ significand' = leadingBit ∨
      reach significand' = 2 ∧ significand' ≠ leadingBit := by
    unfold reach
    split <;> simp_all
  rw [leadingBit_eq] at reached
  rcases less with finer | ⟨rfl, smaller⟩
  · have normal : 4503599627370496 ≤ significand' := by
      rcases represented'.normalised with normal | subnormal
      · exact normal
      · have := represented.least
        omega
    have twice : 2 * (2 : ℚ) ^ (exponent - 2) ≤ 2 ^ (exponent' - 2) := by
      rw [← zpow_one_add₀ (by norm_num)]
      exact zpow_le_zpow_right₀ (by norm_num) (by omega)
    have lower : (18014398509481983 : ℚ) ≤ ((4 * significand' - reach significand' : Nat) : ℚ) := by
      exact_mod_cast (by omega : 18014398509481983 ≤ 4 * significand' - reach significand')
    have bottom := mul_le_mul lower twice (by positivity) (by positivity)
    -- Only the greatest significand comes as close to the next power of two as its interval does.
    have fits := represented.fits
    by_cases greatest : significand = 9007199254740991
    · have top := (strict (by omega)).2
      rw [greatest] at top
      norm_num at top bottom
      linarith
    · have upper : ((4 * significand + 2 : Nat) : ℚ) ≤ 36028797018963962 := by
        exact_mod_cast (by omega : 4 * significand + 2 ≤ 36028797018963962)
      have top := mul_le_mul_of_nonneg_right upper unit.le
      linarith
  · have apart : ((4 * significand + 2 : Nat) : ℚ) ≤ ((4 * significand' - reach significand' : Nat) : ℚ) := by
      exact_mod_cast (by omega : 4 * significand + 2 ≤ 4 * significand' - reach significand')
    have between := mul_le_mul_of_nonneg_right apart unit.le
    by_cases odd : significand % 2 = 1
    · linarith [(strict odd).2]
    · by_cases odd' : significand' % 2 = 1
      · linarith [(strict' odd').1]
      · -- Two even significands are not next to each other.
        have further : ((4 * significand + 6 : Nat) : ℚ) ≤ ((4 * significand' - reach significand' : Nat) : ℚ) := by
          exact_mod_cast (by omega : 4 * significand + 6 ≤ 4 * significand' - reach significand')
        have gap := mul_le_mul_of_nonneg_right further unit.le
        push_cast at gap high
        linarith

/-- A number stands for one float at most. -/
theorem denotes_unique {significand significand' : Nat} {exponent exponent' : Int}
    (represented : Represented significand exponent) (represented' : Represented significand' exponent')
    (denotes : Denotes significand exponent number) (denotes' : Denotes significand' exponent' number) :
    significand = significand' ∧ exponent = exponent' := by
  have least (zero : significand = 0) : exponent = -1074 := by
    rcases represented.normalised with normal | least
    · omega
    · exact least
  have least' (zero : significand' = 0) : exponent' = -1074 := by
    rcases represented'.normalised with normal | least
    · omega
    · exact least
  unfold Denotes at denotes denotes'
  by_cases zero : significand = 0 <;> by_cases zero' : significand' = 0
  · exact ⟨by omega, by rw [least zero, least' zero']⟩
  · simp only [zero, zero', ↓reduceIte] at denotes denotes'
    have positive := roundsTo_pos (Nat.pos_of_ne_zero zero') (by positivity) denotes'
    exact absurd denotes positive.ne'
  · simp only [zero, zero', ↓reduceIte] at denotes denotes'
    have positive := roundsTo_pos (Nat.pos_of_ne_zero zero) (by positivity) denotes
    exact absurd denotes' positive.ne'
  · simp only [zero, zero', ↓reduceIte] at denotes denotes'
    have notLess : ¬ (exponent < exponent' ∨ exponent = exponent' ∧ significand < significand') :=
      fun less => not_roundsTo_both represented represented' less denotes denotes'
    have notGreater : ¬ (exponent' < exponent ∨ exponent' = exponent ∧ significand' < significand) :=
      fun less => not_roundsTo_both represented' represented less denotes' denotes
    constructor <;> omega

end FormulaSheet.ShortestDecimals
