import CommandDesk.Error
import CommandDesk.Text.Cut

/-!
# Command names

A command name is a sequence of lowercase words joined by single hyphens. The
first word is its verb and the rest its noun.
-/

namespace CommandDesk

namespace Name

/-- The longest name, in bytes. -/
def maxBytes : Nat := 64

/-- Whether the character is an ASCII lowercase letter. -/
def isLetter (c : Char) : Bool := 'a' ≤ c && c ≤ 'z'

/-- Whether the characters are non-empty words of letters joined by single hyphens, as the pattern
`^[a-z]+(?:-[a-z]+)*$` has it. -/
def isJoinedWords (s : List Char) : Bool :=
  (Text.pieces '-' s).all fun w => !w.isEmpty && w.all isLetter

/-- Whether a text is a command name. -/
def isValid (s : String) : Bool := s.utf8ByteSize ≤ maxBytes && isJoinedWords s.toList

/-- Refuse a text that is no command name. -/
def validate (s : String) : Except Error Unit :=
  if isValid s then .ok () else .error (.invalidCommandName s)

/-- The parts before and after the first hyphen; without a hyphen the second part is empty. -/
def split (s : String) : String × String := (Text.splitOnce? '-' s).getD (s, "")

/-- The part before the first hyphen. -/
def verb (s : String) : String := (split s).1

/-- The part after the first hyphen. -/
def noun (s : String) : String := (split s).2

end Name

end CommandDesk
