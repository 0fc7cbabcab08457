/-!
Line numbers of byte offsets. A `LineTable` lists the offsets at which the lines of a text start,
in increasing order. `lineAt` looks an offset up by halving an interval: it is one of the starts, or
stands between two of them.
-/

namespace FormulaSheet.Text

/-- Where the lines of a text start, as offsets into its UTF-8 encoding. -/
structure LineTable where
  /-- Increasing, and beginning with offset 0. -/
  starts : Array Nat

namespace LineTable

/-- The offsets just behind the newlines of `cs`, whose first character stands at `offset`. -/
def startsFrom (offset : Nat) : List Char → List Nat
  | [] => []
  | c :: cs =>
    let next := offset + c.utf8Size
    if c = '\n' then next :: startsFrom next cs else startsFrom next cs

/-- The line starts of `text`. -/
def ofText (text : String) : LineTable := ⟨(0 :: startsFrom 0 text.toList).toArray⟩

/-- The place of `offset` among the entries of `starts` between `lo` and `hi`, or, as an error, the
place at which it would have to be put in. -/
def search (starts : Array Nat) (offset lo hi : Nat) : Except Nat Nat :=
  if lo < hi then
    let mid := lo + (hi - lo) / 2
    if starts.getD mid 0 = offset then .ok mid
    else if starts.getD mid 0 < offset then search starts offset (mid + 1) hi
    else search starts offset lo mid
  else .error lo
termination_by hi - lo

/-- `line_at`: the line, counted from 1, that holds the byte at `offset`. Places count from 0, so a
start that is found begins the next line. An offset behind the text belongs to the last line. -/
def lineAt (table : LineTable) (offset : Nat) : Nat :=
  match search table.starts offset 0 table.starts.size with
  | .ok line => line + 1
  | .error line => line

end LineTable

end FormulaSheet.Text
