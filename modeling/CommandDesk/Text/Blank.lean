/-!
# Blank characters, trimming and words

A character is blank when it has the Unicode property White_Space. Trimming
drops blanks from both ends of a text; its words are the maximal runs of
characters that are not blank.
-/

namespace CommandDesk

namespace Text

/-- The closed ranges of the blank characters, ascending and apart. -/
def blankRanges : List (Nat × Nat) :=
  [(0x09, 0x0D), (0x20, 0x20), (0x85, 0x85), (0xA0, 0xA0), (0x1680, 0x1680), (0x2000, 0x200A),
    (0x2028, 0x2029), (0x202F, 0x202F), (0x205F, 0x205F), (0x3000, 0x3000)]

/-- Whether a code point lies in one of the ranges. -/
def inRanges (ranges : List (Nat × Nat)) (n : Nat) : Bool :=
  ranges.any fun r => r.1 ≤ n && n ≤ r.2

/-- Whether the character is Unicode white space. -/
def isBlank (c : Char) : Bool := inRanges blankRanges c.toNat

/-- Drop the blanks at the front. -/
def trimFront (s : List Char) : List Char := s.dropWhile isBlank

/-- Drop the blanks at the end. -/
def trimBack (s : List Char) : List Char := (trimFront s.reverse).reverse

/-- Drop the blanks at both ends of a list of characters. -/
def trimChars (s : List Char) : List Char := trimBack (trimFront s)

/-- Drop the blanks at both ends of a text. -/
def trim (s : String) : String := String.ofList (trimChars s.toList)

/-- The pieces between blanks, empty ones included. -/
def blankPieces : List Char → List (List Char)
  | [] => [[]]
  | c :: s =>
    if isBlank c then [] :: blankPieces s
    else match blankPieces s with
      | [] => [[c]]
      | p :: ps => (c :: p) :: ps

/-- The words of a text, in order. -/
def words (s : String) : List String :=
  ((blankPieces s.toList).filter (!·.isEmpty)).map String.ofList

end Text

end CommandDesk
