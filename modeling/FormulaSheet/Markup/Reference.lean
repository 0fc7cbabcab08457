import FormulaSheet.Decimal.Digits

/-!
Character references in text: `&name;` for five characters, `&#d;` and `&#xh;` for any character
by its code point. `decode` replaces every reference once and fails if any `&` does not begin one.
-/

namespace FormulaSheet.Markup

/-- The character with a given code point; surrogates and numbers out of range have none. -/
def scalar? (n : Nat) : Option Char :=
  if n.isValidChar then some (Char.ofNat n) else none

/-- The character that the part of a reference between `&` and `;` stands for. -/
def referent? : List Char → Option Char
  | ['l', 't'] => some '<'
  | ['g', 't'] => some '>'
  | ['a', 'm', 'p'] => some '&'
  | ['q', 'u', 'o', 't'] => some '"'
  | ['a', 'p', 'o', 's'] => some '\''
  | '#' :: 'x' :: digits | '#' :: 'X' :: digits => (Decimal.unsigned? 16 digits).bind scalar?
  | '#' :: digits => (Decimal.unsigned? 10 digits).bind scalar?
  | _ => none

/-- The text in front of the first `;` and the text behind it. -/
def splitSemicolon? : List Char → Option (List Char × List Char)
  | [] => none
  | c :: cs =>
    if c = ';' then some ([], cs)
    else (splitSemicolon? cs).map fun (name, rest) => (c :: name, rest)

/-- What follows the first `;` is shorter than the text. -/
theorem splitSemicolon?_length {cs name rest : List Char}
    (found : splitSemicolon? cs = some (name, rest)) : rest.length < cs.length := by
  induction cs generalizing name with
  | nil => simp [splitSemicolon?] at found
  | cons c cs ih =>
    rw [splitSemicolon?] at found
    split at found
    · cases found
      simp
    · obtain ⟨⟨name', rest'⟩, inner, same⟩ := Option.map_eq_some_iff.1 found
      cases same
      have := ih inner
      simp only [List.length_cons]
      omega

/-- `decode_entities`: the text with each reference replaced by its character. -/
def decode (cs : List Char) : Option (List Char) :=
  match cs with
  | [] => some []
  | c :: rest =>
    if c = '&' then
      match _found : splitSemicolon? rest with
      | none => none
      | some (name, tail) =>
        match referent? name with
        | none => none
        | some character => (decode tail).map (character :: ·)
    else (decode rest).map (c :: ·)
termination_by cs.length
decreasing_by
  · have := splitSemicolon?_length _found
    simp only [List.length_cons]
    omega
  · simp

end FormulaSheet.Markup
