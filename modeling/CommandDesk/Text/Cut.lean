/-!
# Cutting and joining text

Splitting at a character or at line ends, cutting into pieces of one length,
and padding to a width. Lengths and widths count characters.
-/

namespace CommandDesk

namespace Text

/-- The characters before the first `sep` and those after it, if there is one. -/
def splitFirst? (sep : Char) : List Char → Option (List Char × List Char)
  | [] => none
  | c :: s => if c = sep then some ([], s) else (splitFirst? sep s).map fun (a, b) => (c :: a, b)

/-- The text before the first `sep` and the text after it, if there is one. -/
def splitOnce? (sep : Char) (s : String) : Option (String × String) :=
  (splitFirst? sep s.toList).map fun (a, b) => (String.ofList a, String.ofList b)

/-- The pieces between the occurrences of `sep`, empty ones included. -/
def pieces (sep : Char) : List Char → List (List Char)
  | [] => [[]]
  | c :: s =>
    if c = sep then [] :: pieces sep s
    else match pieces sep s with
      | [] => [[c]]
      | p :: ps => (c :: p) :: ps

/-- Drop one carriage return from the end. -/
def dropReturn (s : List Char) : List Char :=
  if s.getLast? = some '\r' then s.dropLast else s

/-- The lines of a text. A line feed ends a line and takes a carriage return before it along;
what follows the last line feed is a line if it is not empty. -/
def linesOf (s : List Char) : List (List Char) :=
  let ps := pieces '\n' s
  let rest := ps.getLast?.getD []
  ps.dropLast.map dropReturn ++ if rest.isEmpty then [] else [rest]

/-- The lines of a text, without their line ends. -/
def lines (s : String) : List String := (linesOf s.toList).map String.ofList

/-- Consecutive pieces of `n` characters, the last one possibly shorter; no piece for an empty
list. A width of zero counts as one. -/
def chunks (n : Nat) (s : List Char) : List (List Char) :=
  match s with
  | [] => []
  | c :: s => (c :: s.take (n - 1)) :: chunks n (s.drop (n - 1))
termination_by s.length
decreasing_by simp only [List.length_drop, List.length_cons]; omega

/-- `n` spaces. -/
def spaces (n : Nat) : List Char := List.replicate n ' '

/-- Fill up with spaces on the right to at least `n` characters. -/
def padRight (n : Nat) (s : List Char) : List Char := s ++ spaces (n - s.length)

/-- Fill up with spaces on both sides to at least `n` characters, the odd one on the right. -/
def padCentre (n : Nat) (s : List Char) : List Char :=
  let pad := n - s.length
  spaces (pad / 2) ++ s ++ spaces (pad - pad / 2)

/-- Whether the first text is an initial part of the second. -/
def isInitial : List Char → List Char → Bool
  | [], _ => true
  | _ :: _, [] => false
  | a :: s, b :: t => a = b && isInitial s t

/-- Drop an initial character if the text has it. -/
def dropInitial (c : Char) : List Char → List Char
  | [] => []
  | d :: s => if d = c then s else d :: s

/-- Write `b` for every `a`. -/
def replaceChar (a b : Char) (s : String) : String :=
  String.ofList (s.toList.map fun c => if c = a then b else c)

/-- Lines joined by line feeds. -/
def joinLines (ls : List String) : String := "\n".intercalate ls

end Text

end CommandDesk
