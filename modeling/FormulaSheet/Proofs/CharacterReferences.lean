import FormulaSheet.Markup.Reference
import FormulaSheet.Proofs.Numerals

/-! Character data and the characters that it stands for. A text is decoded exactly if it is made of characters other
than `&` and of references, and then each of these pieces gives one character. What a reference gives is not looked at
again, so an ampersand that stands for itself begins nothing. -/
namespace FormulaSheet.CharacterReferences
open Markup Numerals

/-! ## The grammar of character data -/

/-- The characters that have a name of their own. -/
def predefined : List (String × Char) := [("lt", '<'), ("gt", '>'), ("amp", '&'), ("quot", '"'), ("apos", '\'')]

/-- The numbers of characters: those of Unicode without the surrogates. -/
def Scalar (n : Nat) : Prop := n ≤ 0x10FFFF ∧ ¬ (0xD800 ≤ n ∧ n ≤ 0xDFFF)

/-- What may stand between `&` and `;`, and the character that it names. -/
inductive Reference : List Char → Char → Prop where
  | named (entry : (name, c) ∈ predefined) : Reference name.toList c
  | decimal (number : Unsigned 10 digits n) (scalar : Scalar n) : Reference ('#' :: digits) (Char.ofNat n)
  | hexadecimal (mark : x = 'x' ∨ x = 'X') (number : Unsigned 16 digits n) (scalar : Scalar n) :
      Reference ('#' :: x :: digits) (Char.ofNat n)

/-- A piece of character data and the character that it stands for. -/
inductive Stands : List Char → Char → Prop where
  | plain (other : c ≠ '&') : Stands [c] c
  | reference (names : Reference name c) : Stands ('&' :: (name ++ [';'])) c

/-- How a character is written so that it is never taken for markup. -/
def guarded (c : Char) : List Char :=
  match predefined.find? (·.2 = c) with
  | some (name, _) => '&' :: (name.toList ++ [';'])
  | none => [c]

/-! ## References -/

private theorem scalar?_eq_some_iff : scalar? n = some c ↔ Scalar n ∧ c = Char.ofNat n := by
  have valid : n.isValidChar ↔ Scalar n := by
    simp only [Nat.isValidChar, Scalar]
    omega
  rw [scalar?, Option.ite_none_right_eq_some, valid, Option.some.injEq, eq_comm (a := c)]

private theorem numbered_eq_some_iff (small : base ≤ 16) :
    (Decimal.unsigned? base digits).bind scalar? = some c ↔
      ∃ n, Unsigned base digits n ∧ Scalar n ∧ c = Char.ofNat n := by
  simp only [Option.bind_eq_some_iff, unsigned?_eq_some_iff small, scalar?_eq_some_iff]

/-- Without the mark of base sixteen, a number is decimal. -/
theorem referent?_decimal (small : 'x' ∉ digits) (capital : 'X' ∉ digits) :
    referent? ('#' :: digits) = (Decimal.unsigned? 10 digits).bind scalar? := by
  cases digits with
  | nil => rfl
  | cons d digits =>
    have notSmall := List.ne_of_not_mem_cons small
    have notCapital := List.ne_of_not_mem_cons capital
    unfold referent?
    split <;> simp_all

private theorem referent?_eq_some_iff : referent? name = some c ↔ Reference name c := by
  constructor
  · intro found
    unfold referent? at found
    split at found
    · cases found
      exact show Reference "lt".toList '<' from .named (by decide)
    · cases found
      exact show Reference "gt".toList '>' from .named (by decide)
    · cases found
      exact show Reference "amp".toList '&' from .named (by decide)
    · cases found
      exact show Reference "quot".toList '"' from .named (by decide)
    · cases found
      exact show Reference "apos".toList '\'' from .named (by decide)
    · obtain ⟨n, number, scalar, rfl⟩ := (numbered_eq_some_iff (by decide)).mp found
      exact .hexadecimal (.inl rfl) number scalar
    · obtain ⟨n, number, scalar, rfl⟩ := (numbered_eq_some_iff (by decide)).mp found
      exact .hexadecimal (.inr rfl) number scalar
    · obtain ⟨n, number, scalar, rfl⟩ := (numbered_eq_some_iff (by decide)).mp found
      exact .decimal number scalar
    · cases found
  · intro names
    cases names with
    | named entry =>
      simp only [predefined, List.mem_cons, Prod.mk.injEq, List.not_mem_nil, or_false] at entry
      rcases entry with ⟨rfl, rfl⟩ | ⟨rfl, rfl⟩ | ⟨rfl, rfl⟩ | ⟨rfl, rfl⟩ | ⟨rfl, rfl⟩ <;> rfl
    | decimal number scalar =>
      have noMark {x : Char} (other : Decimal.hexValue? x = none) (noPlus : x ≠ '+') :=
        number.not_mem (by decide) other noPlus
      rw [referent?_decimal (noMark rfl (by decide)) (noMark rfl (by decide))]
      exact (numbered_eq_some_iff (by decide)).mpr ⟨_, number, scalar, rfl⟩
    | hexadecimal mark number scalar =>
      rcases mark with rfl | rfl
      · exact (numbered_eq_some_iff (by decide)).mpr ⟨_, number, scalar, rfl⟩
      · exact (numbered_eq_some_iff (by decide)).mpr ⟨_, number, scalar, rfl⟩

/-- A reference ends at the first semicolon. -/
theorem Reference.not_mem (names : Reference name c) : ';' ∉ name := by
  cases names with
  | named entry =>
    simp only [predefined, List.mem_cons, Prod.mk.injEq, List.not_mem_nil, or_false] at entry
    rcases entry with ⟨rfl, -⟩ | ⟨rfl, -⟩ | ⟨rfl, -⟩ | ⟨rfl, -⟩ | ⟨rfl, -⟩ <;> decide
  | decimal number scalar =>
    have digits := number.not_mem (by decide) (show Decimal.hexValue? ';' = none from rfl) (by decide)
    simp [digits]
  | hexadecimal mark number scalar =>
    have digits := number.not_mem (by decide) (show Decimal.hexValue? ';' = none from rfl) (by decide)
    rcases mark with rfl | rfl
    · simp [digits]
    · simp [digits]

/-! ## Pieces -/

private theorem splitSemicolon?_front {name : List Char} (rest : List Char) (plain : ';' ∉ name) :
    splitSemicolon? (name ++ ';' :: rest) = some (name, rest) := by
  induction name with
  | nil => simp [splitSemicolon?]
  | cons d name ih =>
    have different := List.ne_of_not_mem_cons plain
    rw [List.cons_append, splitSemicolon?, if_neg (Ne.symm different), ih (List.not_mem_of_not_mem_cons plain)]
    rfl

private theorem splitSemicolon?_parts (found : splitSemicolon? cs = some (name, rest)) : cs = name ++ ';' :: rest := by
  induction cs generalizing name with
  | nil => cases found
  | cons c cs ih =>
    rw [splitSemicolon?] at found
    split at found
    · rename_i semicolon
      cases found
      rw [semicolon, List.nil_append]
    · obtain ⟨⟨inner, behind⟩, deeper, same⟩ := Option.map_eq_some_iff.mp found
      cases same
      rw [ih deeper, List.cons_append]

/-- A reference is replaced by the character that it names, and reading goes on behind it. -/
theorem decode_reference (name : List Char) (plain : ';' ∉ name) (names : referent? name = some c) :
    decode ('&' :: (name ++ ';' :: rest)) = (decode rest).map (c :: ·) := by
  have front := splitSemicolon?_front rest plain
  rw [decode, if_pos rfl]
  split
  · rename_i missing
    rw [front] at missing
    cases missing
  · rename_i found
    rw [front] at found
    cases found
    simp only [names]

private theorem decode_piece (stands : Stands chars c) (rest : List Char) :
    decode (chars ++ rest) = (decode rest).map (c :: ·) := by
  cases stands with
  | plain other => rw [List.singleton_append, decode, if_neg other]
  | @reference name _ names =>
    have shape : '&' :: (name ++ [';']) ++ rest = '&' :: (name ++ ';' :: rest) := by simp
    rw [shape]
    exact decode_reference name names.not_mem (referent?_eq_some_iff.mpr names)

/-- Each piece gives its character, once. -/
theorem decode_pieces (made : List.Forall₂ Stands pieces out) : decode pieces.flatten = some out := by
  induction made with
  | nil => rw [List.flatten_nil, decode]
  | cons stands _ ih =>
    rw [List.flatten_cons, decode_piece stands, ih]
    rfl

private theorem pieces_of_decode (decoded : decode cs = some out) :
    ∃ pieces, pieces.flatten = cs ∧ List.Forall₂ Stands pieces out := by
  fun_induction decode cs generalizing out with
  | case1 =>
    cases decoded
    exact ⟨[], rfl, .nil⟩
  | case2 | case3 => cases decoded
  | case4 rest name tail found character names ih =>
    obtain ⟨later, decodedTail, rfl⟩ := Option.map_eq_some_iff.mp decoded
    obtain ⟨pieces, rfl, made⟩ := ih decodedTail
    have stands : Stands ('&' :: (name ++ [';'])) character := .reference (referent?_eq_some_iff.mp names)
    refine ⟨_, ?_, .cons stands made⟩
    simp [splitSemicolon?_parts found]
  | case5 c rest other ih =>
    obtain ⟨later, decodedRest, rfl⟩ := Option.map_eq_some_iff.mp decoded
    obtain ⟨pieces, rfl, made⟩ := ih decodedRest
    exact ⟨[c] :: pieces, rfl, .cons (.plain other) made⟩

/-! ## Guarded text -/

private theorem guarded_stands (c : Char) : Stands (guarded c) c := by
  unfold guarded
  split
  · rename_i name d found
    obtain rfl : d = c := by simpa using List.find?_some found
    exact .reference (.named (List.mem_of_find?_eq_some found))
  · rename_i missing
    refine .plain fun ampersand => ?_
    subst ampersand
    cases missing

/-- **Decoding accepts exactly character data, and decodes it once.** A text is decoded to `out` just if it can be cut
into pieces that stand for the characters of `out`, one by one. So every text is had back from its guarded form. -/
theorem decoding_reads_each_piece_once (cs : List Char) :
    (∀ out, decode cs = some out ↔ ∃ pieces, pieces.flatten = cs ∧ List.Forall₂ Stands pieces out) ∧
      decode (cs.flatMap guarded) = some cs := by
  constructor
  · intro out
    constructor
    · exact pieces_of_decode
    · rintro ⟨pieces, rfl, made⟩
      exact decode_pieces made
  · have made : List.Forall₂ Stands (cs.map guarded) cs := by
      rw [List.forall₂_map_left_iff]
      exact List.forall₂_same.mpr fun c _ => guarded_stands c
    exact decode_pieces made

-- The ampersand that a reference gives begins no other reference.
example : decode "&amp;lt;".toList = some "&lt;".toList := by cbv

end FormulaSheet.CharacterReferences
