import Mathlib.Data.Nat.Count
import FormulaSheet.Markup.Token
import FormulaSheet.Text.LineTable

/-! Lines count newlines. The table of a text lists the offsets behind its newlines in increasing order, so
an offset that is found at a place of it has one entry more at or below it than the place says, and one that is
not found has as many as the place at which it would have to stand. Offsets are those of bytes: in UTF-8 a
newline is one byte, which no other character has in it, so an offset inside a character does no harm. -/
namespace FormulaSheet.LineNumbers
open Text LineTable
open Markup (byteLength)

/-- An entry of an increasing list is at or below a bound exactly when its place is below the number of
such entries. -/
theorem entry_le_iff {starts : List Nat} (increasing : starts.Pairwise (· < ·)) (inside : place < starts.length) :
    starts[place] ≤ offset ↔ place < starts.countP (· ≤ offset) := by
  induction starts generalizing place with
  | nil => simp at inside
  | cons first rest ih =>
    obtain ⟨below, increasingRest⟩ := List.pairwise_cons.mp increasing
    by_cases reached : first ≤ offset
    · cases place with
      | zero => simp [reached]
      | succ place => simpa [reached] using ih increasingRest (by simpa using inside)
    · -- Behind an entry above the bound, no entry is at or below it.
      have none : rest.countP (· ≤ offset) = 0 := by
        refine List.countP_eq_zero.mpr fun entry member => ?_
        have := below entry member
        simp only [decide_eq_true_eq]
        omega
      cases place with
      | zero => simp [reached, none]
      | succ place =>
        have inRest : place < rest.length := by simpa using inside
        have := below rest[place] (List.getElem_mem inRest)
        simp only [List.getElem_cons_succ, List.countP_cons, none, reached, decide_false, Bool.false_eq_true,
          ↓reduceIte]
        omega

/-- Behind an entry that is the bound, no entry is at or below it. -/
theorem count_of_found {starts : List Nat} (increasing : starts.Pairwise (· < ·)) (inside : place < starts.length)
    (found : starts[place] = offset) : starts.countP (· ≤ offset) = place + 1 := by
  have reached := (entry_le_iff increasing inside).mp (Nat.le_of_eq found)
  by_contra more
  have next : place + 1 < starts.countP (· ≤ offset) := by omega
  have bound : place + 1 < starts.length := Nat.lt_of_lt_of_le next List.countP_le_length
  have below := (entry_le_iff increasing bound).mpr next
  have above := List.pairwise_iff_getElem.mp increasing place (place + 1) inside bound (Nat.lt_succ_self place)
  omega

/-- Halving keeps the number of entries at or below the bound between both ends. It stops at an entry that is the
bound, or where both ends have met at that number. -/
theorem search_counts {starts : List Nat} (increasing : starts.Pairwise (· < ·))
    (least : lo ≤ starts.countP (· ≤ offset)) (most : starts.countP (· ≤ offset) ≤ hi)
    (inside : hi ≤ starts.length) :
    match search starts.toArray offset lo hi with
    | .ok place => starts.countP (· ≤ offset) = place + 1
    | .error place => starts.countP (· ≤ offset) = place := by
  have read (place : Nat) (bound : place < starts.length) : starts.toArray.getD place 0 = starts[place] := by
    simp [Array.getD, bound]
  fun_induction search starts.toArray offset lo hi with
  | case1 lo hi less mid found =>
    have bound : mid < starts.length := by omega
    rw [read mid bound] at found
    exact count_of_found increasing bound found
  | case2 lo hi less mid _ reached ih =>
    have bound : mid < starts.length := by omega
    rw [read mid bound] at reached
    have := (entry_le_iff increasing bound).mp (Nat.le_of_lt reached)
    exact ih (by omega) most inside
  | case3 lo hi less mid missed beyond ih =>
    have bound : mid < starts.length := by omega
    rw [read mid bound] at missed beyond
    have := mt (entry_le_iff increasing bound).mpr (by omega : ¬starts[mid] ≤ offset)
    exact ih least (by omega) (by omega)
  | case4 lo hi met => simp only; omega

private theorem startsFrom_increasing (offset : Nat) (cs : List Char) :
    (offset :: startsFrom offset cs).Pairwise (· < ·) := by
  induction cs generalizing offset with
  | nil => simp [startsFrom]
  | cons c cs ih =>
    obtain ⟨above, increasing⟩ := List.pairwise_cons.mp (ih (offset + c.utf8Size))
    have size := c.utf8Size_pos
    have later : ∀ start ∈ startsFrom (offset + c.utf8Size) cs, offset < start := by
      intro start member
      have := above start member
      omega
    rw [startsFrom]
    split
    · refine List.pairwise_cons.mpr ⟨?_, ih _⟩
      intro start member
      rcases List.mem_cons.mp member with rfl | member
      · omega
      · exact later start member
    · exact List.pairwise_cons.mpr ⟨later, increasing⟩

/-- The line of an offset counts the line starts at or below it. -/
theorem lineAt_eq (text : String) (offset : Nat) :
    (LineTable.ofText text).lineAt offset = 1 + (startsFrom 0 text.toList).countP (· ≤ offset) := by
  have increasing := startsFrom_increasing 0 text.toList
  have counted := search_counts increasing (Nat.zero_le _) (List.countP_le_length (p := (· ≤ offset))) (Nat.le_refl _)
  have first : (0 :: startsFrom 0 text.toList).countP (· ≤ offset) =
      1 + (startsFrom 0 text.toList).countP (· ≤ offset) := by
    simp [Nat.add_comm]
  rw [first] at counted
  rw [LineTable.lineAt, LineTable.ofText, List.size_toArray]
  cases found : search (0 :: startsFrom 0 text.toList).toArray offset 0 (0 :: startsFrom 0 text.toList).length with
  | ok place =>
    rw [found] at counted
    exact counted.symm
  | error place =>
    rw [found] at counted
    exact counted.symm

/-! ## Bytes -/

/-- The bytes of a text in UTF-8. -/
def bytes (cs : List Char) : List UInt8 := cs.flatMap String.utf8EncodeChar

private theorem bytes_cons (c : Char) (cs : List Char) : bytes (c :: cs) = String.utf8EncodeChar c ++ bytes cs :=
  List.flatMap_cons

private theorem bytes_append (front back : List Char) : bytes (front ++ back) = bytes front ++ bytes back :=
  List.flatMap_append

private theorem length_bytes (cs : List Char) : (bytes cs).length = byteLength cs := by
  induction cs with
  | nil => rfl
  | cons c cs ih => rw [bytes_cons, List.length_append, String.length_utf8EncodeChar, ih, byteLength]

theorem byteLength_append (before after : List Char) :
    byteLength (before ++ after) = byteLength before + byteLength after := by
  rw [← length_bytes, bytes_append, List.length_append, length_bytes, length_bytes]

theorem byteLength_eq_zero : byteLength cs = 0 ↔ cs = [] := by
  cases cs with
  | nil => simp [byteLength]
  | cons c cs =>
    have := c.utf8Size_pos
    simp only [byteLength, reduceCtorEq, iff_false]
    omega

private theorem toUTF8_eq (text : String) : text.toUTF8 = (bytes text.toList).toByteArray := by
  conv_lhs => rw [← String.ofList_toList (s := text)]
  exact String.toByteArray_ofList

private theorem toUTF8_getElem? (text : String) (place : Nat) : text.toUTF8[place]? = (bytes text.toList)[place]? := by
  rw [toUTF8_eq]
  simp [getElem?_def, List.getElem_toByteArray]

theorem byteLength_toList (text : String) : byteLength text.toList = text.utf8ByteSize := by
  have size := congrArg ByteArray.size (toUTF8_eq text)
  rw [List.size_toByteArray, length_bytes] at size
  exact size.symm

private theorem newline_not_mem (other : c ≠ '\n') : 0x0A ∉ String.utf8EncodeChar c := by
  have apart : c.val.toNat ≠ 10 := fun same => other (Char.ext (UInt32.toNat_inj.mp same))
  have byte (n : Nat) (outside : n % 256 ≠ 10) : 0x0A ≠ UInt8.ofNat n := by
    intro same
    have value := congrArg UInt8.toNat same
    rw [UInt8.toNat_ofNat'] at value
    exact outside value.symm
  -- One byte is the code point itself, and of several bytes each is at least 128.
  dsimp only [String.utf8EncodeChar]
  split
  · simp only [List.mem_singleton]
    exact byte _ (by omega)
  · split
    · simp only [List.mem_cons, List.not_mem_nil, or_false, not_or]
      exact ⟨byte _ (by omega), byte _ (by omega)⟩
    · split
      · simp only [List.mem_cons, List.not_mem_nil, or_false, not_or]
        exact ⟨byte _ (by omega), byte _ (by omega), byte _ (by omega)⟩
      · simp only [List.mem_cons, List.not_mem_nil, or_false, not_or]
        exact ⟨byte _ (by omega), byte _ (by omega), byte _ (by omega), byte _ (by omega)⟩

/-- The newline bytes of a text are its newlines. -/
theorem count_bytes (cs : List Char) : (bytes cs).count 0x0A = cs.count '\n' := by
  induction cs with
  | nil => rfl
  | cons c cs ih =>
    rw [bytes_cons, List.count_append, ih]
    by_cases newline : c = '\n'
    · subst newline
      rw [List.count_cons_self, Nat.add_comm]
      rfl
    · rw [List.count_eq_zero.mpr (newline_not_mem newline), Nat.zero_add, List.count_cons_of_ne newline]

/-- The line starts at or below an offset are the newlines among the bytes below it. -/
theorem countP_startsFrom (cs : List Char) (start offset : Nat) :
    (startsFrom start cs).countP (· ≤ offset) = ((bytes cs).take (offset - start)).count 0x0A := by
  induction cs generalizing start with
  | nil => simp [startsFrom, bytes]
  | cons c cs ih =>
    rw [bytes_cons, List.take_append, List.count_append, String.length_utf8EncodeChar, Nat.sub_sub,
      ← ih (start + c.utf8Size), startsFrom]
    by_cases newline : c = '\n'
    · subst newline
      have encoded : String.utf8EncodeChar '\n' = [0x0A] := rfl
      have size : Char.utf8Size '\n' = 1 := rfl
      rw [encoded, size, if_pos rfl, List.countP_cons, Nat.add_comm]
      by_cases reached : start + 1 ≤ offset
      · have long : offset - start = offset - (start + 1) + 1 := by omega
        rw [long, List.take_succ_cons]
        simp [reached]
      · have short : offset - start = 0 := by omega
        simp [reached, short]
    · have none : ((String.utf8EncodeChar c).take (offset - start)).count 0x0A = 0 :=
        List.count_eq_zero.mpr fun member => newline_not_mem newline (List.mem_of_mem_take member)
      rw [none, if_neg newline, Nat.zero_add]

private theorem lineAt_eq_take (text : String) (offset : Nat) :
    (LineTable.ofText text).lineAt offset = 1 + ((bytes text.toList).take offset).count 0x0A := by
  rw [lineAt_eq, countP_startsFrom, Nat.sub_zero]

/-- What stands behind some text is on the line that the newlines of that text make. -/
theorem lineAt_behind (before after : List Char) :
    (LineTable.ofText (String.ofList (before ++ after))).lineAt (byteLength before) =
      1 + before.count '\n' := by
  rw [lineAt_eq_take, String.toList_ofList, bytes_append, ← length_bytes, List.take_left, count_bytes]

/-- The places below a bound that hold a byte are its occurrences among so many bytes. -/
theorem count_places (entries : List UInt8) (byte : UInt8) (bound : Nat) :
    Nat.count (fun place => entries[place]? = some byte) bound = (entries.take bound).count byte := by
  induction bound with
  | zero => simp
  | succ bound ih =>
    rw [Nat.count_succ, ih, List.take_add_one, List.count_append]
    congr 1
    cases entries[bound]? with
    | none => simp
    | some entry => simp [List.count_singleton]

/-- **Lines count newlines.** The line of a byte offset is one more than the number of newline bytes below it, for every
offset: inside a character, at a newline, at the end of the text and beyond it. So lines grow with the offset, from the
first line to the one behind the last newline. -/
theorem line_counts_newline_bytes_below (text : String) :
    (∀ offset, (LineTable.ofText text).lineAt offset =
      1 + Nat.count (fun place => text.toUTF8[place]? = some 0x0A) offset) ∧
    Monotone (LineTable.ofText text).lineAt ∧
    ∀ offset, 1 ≤ (LineTable.ofText text).lineAt offset ∧
      (LineTable.ofText text).lineAt offset ≤ 1 + text.toList.count '\n' := by
  have counted (offset : Nat) : (LineTable.ofText text).lineAt offset =
      1 + Nat.count (fun place => text.toUTF8[place]? = some 0x0A) offset := by
    simp only [toUTF8_getElem?]
    rw [count_places, lineAt_eq_take]
  refine ⟨counted, ?_, ?_⟩
  · intro offset later order
    rw [counted, counted]
    exact Nat.add_le_add_left (Nat.count_monotone _ order) 1
  · intro offset
    have most := (List.take_sublist offset (bytes text.toList)).count_le 0x0A
    rw [count_bytes] at most
    rw [lineAt_eq_take]
    omega

end FormulaSheet.LineNumbers
