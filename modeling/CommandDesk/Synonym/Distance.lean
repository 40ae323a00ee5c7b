/-!
# Edit distance

The number of single-character insertions, deletions and substitutions that
turn one text into another, computed row by row. A row holds, for one initial
part of the first text, the distances to all initial parts of the second.
-/

namespace CommandDesk

namespace Distance

/-- The rest of a row for the character `a`. `left` is the distance just before, `diagonal` the
one before it in the row above, and `above` what follows in the row above. -/
def fillRow (a : Char) (left diagonal : Nat) : List Char → List Nat → List Nat
  | c :: s, above :: row =>
    let d := min (min (above + 1) (left + 1)) (diagonal + if a = c then 0 else 1)
    d :: fillRow a d above s row
  | _, _ => []

/-- The row that follows `row` when the first text grows by the character `a`. -/
def nextRow (t : List Char) (row : List Nat) (a : Char) : List Nat :=
  match row with
  | [] => []
  | d :: row => (d + 1) :: fillRow a (d + 1) d t row

/-- The row for the whole of the first text. -/
def lastRow (s t : List Char) : List Nat := s.foldl (nextRow t) (List.range (t.length + 1))

/-- The edit distance of two lists of characters. -/
def ofChars (s t : List Char) : Nat := (lastRow s t).getLastD 0

/-- The edit distance of two texts. -/
def between (s t : String) : Nat := ofChars s.toList t.toList

end Distance

end CommandDesk
