import CommandDesk.Node.Bare
import CommandDesk.Node.JsonPrinter
import CommandDesk.Yaml.Basic

/-!
# Writing YAML

Block form, with two spaces for each level; a list under a key stands at the
level of the key. A text is written plain where it then reads back as itself,
else in single quotes, else with escapes in double quotes; a text of several
lines is written as a literal block where that is possible.
-/

namespace CommandDesk

namespace Yaml

/-! ## Styles of texts -/

/-- How a text is written. -/
inductive Style where
  | plain
  | single
  | double
  | literal
  deriving DecidableEq, Repr

/-- Whether some neighbours in the text have these properties. -/
def hasPair (p q : Char → Bool) : List Char → Bool
  | a :: b :: s => (p a && q b) || hasPair p q (b :: s)
  | _ => false

/-- Whether the text holds characters that only escapes can write, or a space at the end of a
line. -/
def needsEscape (s : List Char) : Bool :=
  s.any (fun c => !isPrintable c) || hasPair (· = ' ') isBreak s

/-- Whether a text that begins so begins something else than a plain text. -/
def opensOther : List Char → Bool
  | c :: s =>
    ['#', ',', '[', ']', '\x7b', '\x7d', '&', '*', '!', '|', '>', '\'', '"', '%', '@',
        '\x60'].contains c
      || (['?', ':', '-'].contains c && endsWord s.head?)
  | [] => false

/-- Whether a plain text would end before the text does: at a colon that ends a word, or where a
comment begins. -/
def isCutShort : List Char → Bool
  | a :: b :: s =>
    (b = ':' && endsWord s.head?) || (b = '#' && endsWord (some a)) || isCutShort (b :: s)
  | _ => false

/-- Whether the text can stand plain. -/
def plainFits (s : List Char) : Bool :=
  !(opensOther s || isCutShort s || s.any isBreak || needsEscape s
    || Text.isInitial "---".toList s || Text.isInitial "...".toList s
    || s.head? = some ' ' || s.getLast? = some ' ')

/-- Whether the text can stand in single quotes: no line begins with a space. -/
def singleFits (s : List Char) : Bool := !(needsEscape s || hasPair isBreak (· = ' ') s)

/-- Whether the text can stand as a literal block. -/
def literalFits (s : List Char) : Bool := !(needsEscape s || s.getLast? = some ' ')

/-- The style of a text; `inKey` where a key stands on one line. -/
def styleOf (inKey : Bool) (t : String) : Style :=
  let s := t.toList
  if s.contains '\n' then
    if !inKey && literalFits s then .literal else .double
  else if !Bare.hasMeaning t && plainFits s then .plain
  else if singleFits s then .single
  else .double

/-! ## Texts -/

/-- A digit of a hexadecimal number, in uppercase. -/
def hexDigit (n : Nat) : Char := (Nat.digitChar n).toUpper

/-- A number in `width` hexadecimal digits. -/
def hexText : Nat → Nat → List Char
  | 0, _ => []
  | width + 1, n => hexText width (n / 16) ++ [hexDigit (n % 16)]

/-- How a character is written between double quotes. -/
def escape (c : Char) : List Char :=
  match escapes.find? (·.2 = c) with
  | some (letter, _) => ['\\', letter]
  | none =>
    if isPrintable c && !isBreak c then [c]
    else if c.toNat ≤ 0xFF then '\\' :: 'x' :: hexText 2 c.toNat
    else if c.toNat ≤ 0xFFFF then '\\' :: 'u' :: hexText 4 c.toNat
    else '\\' :: 'U' :: hexText 8 c.toNat
where
  /-- The characters that have a letter of their own. -/
  escapes : List (Char × Char) :=
    [('0', '\x00'), ('a', '\x07'), ('b', '\x08'), ('t', '\t'), ('n', '\n'), ('v', '\x0b'),
      ('f', '\x0c'), ('r', '\r'), ('e', '\x1b'), ('"', '"'), ('\\', '\\'), ('N', '\x85'),
      ('L', '\u2028'), ('P', '\u2029')]

/-- Write text whose line breaks are kept, each line that is not empty after `indent` spaces; the
first one too when `atStart`. -/
def indentLines (indent : Nat) : Bool → List Char → List Char
  | _, [] => []
  | atStart, c :: s =>
    if isBreak c then c :: indentLines indent true s
    else (if atStart then Text.spaces indent else []) ++ c :: indentLines indent false s

/-- A text between single quotes. -/
def singleQuoted (indent : Nat) (s : List Char) : List Char :=
  let body := indentLines indent false (s.flatMap fun c => if c = '\'' then ['\'', '\''] else [c])
  '\'' :: body ++ (if s.getLast?.any isBreak then Text.spaces indent else []) ++ ['\'']

/-- A text between double quotes. -/
def doubleQuoted (s : List Char) : List Char := '"' :: s.flatMap escape ++ ['"']

/-- What a literal block says of its first line and of its end. -/
def blockHints (s : List Char) : List Char :=
  let start := if s.head?.any fun c => c = ' ' || isBreak c then ['2'] else []
  let ending := match s.reverse with
    | a :: b :: _ => if !isBreak a then ['-'] else if isBreak b then ['+'] else []
    | [a] => if isBreak a then ['+'] else ['-']
    | [] => ['-']
  start ++ ending

/-- A literal block. -/
def literalBlock (indent : Nat) (s : List Char) : List Char :=
  '|' :: blockHints s ++ '\n' :: indentLines indent true s

/-- A text in its style. Lines after its first stand after `indent` spaces. -/
def textIn (indent : Nat) (style : Style) (s : List Char) : List Char :=
  match style with
  | .plain => s
  | .single => singleQuoted indent s
  | .double => doubleQuoted s
  | .literal => literalBlock indent s

/-- End a line that has not ended. -/
def endLine (s : List Char) : List Char := if s.getLast?.any isBreak then s else s ++ ['\n']

/-! ## Values -/

/-- A value that is neither a list nor a dictionary, at a level that is indented by `indent`. -/
def scalar (indent : Nat) : Node → List Char
  | .text t => textIn (indent + 2) (styleOf false t) t.toList
  | .bare t => t.toList
  | .num x => (Decimal.inDocuments.render x).toList
  | n => (Json.scalar n).toList

/-- Whether a key stands before its colon without a mark of its own. -/
def isShortKey (t : String) : Bool := !t.toList.any isBreak && t.utf8ByteSize ≤ 128

mutual

/-- What follows the colon of a key at a level that is indented by `indent`. -/
def afterKey (indent : Nat) : Node → List Char
  | .dict (e :: es) => '\n' :: entries (indent + 2) true (e :: es)
  | .list (n :: ns) => '\n' :: items indent true (n :: ns)
  | .dict [] => " \x7b\x7d\n".toList
  | .list [] => " []\n".toList
  | n => ' ' :: endLine (scalar indent n)

/-- A value that begins in the middle of a line, at a level that is indented by `indent`. -/
def inLine (indent : Nat) : Node → List Char
  | .dict (e :: es) => entries indent false (e :: es)
  | .list (n :: ns) => items indent false (n :: ns)
  | .dict [] => "\x7b\x7d\n".toList
  | .list [] => "[]\n".toList
  | n => endLine (scalar (indent - 2) n)

/-- The entries of a dictionary, the first one on a new line or not. -/
def entries (indent : Nat) (fresh : Bool) : List (String × Node) → List Char
  | [] => []
  | (k, n) :: es =>
    let start := if fresh then Text.spaces indent else []
    let entry :=
      if isShortKey k then
        textIn (indent + 2) (styleOf true k) k.toList ++ ':' :: afterKey indent n
      else
        '?' :: ' ' :: endLine (textIn (indent + 2) (styleOf false k) k.toList)
          ++ Text.spaces indent ++ ':' :: ' ' :: inLine (indent + 2) n
    start ++ entry ++ entries indent true es

/-- The items of a list, the first one on a new line or not. -/
def items (indent : Nat) (fresh : Bool) : List Node → List Char
  | [] => []
  | n :: ns =>
    (if fresh then Text.spaces indent else []) ++ '-' :: ' ' :: inLine (indent + 2) n
      ++ items indent true ns

end

/-- A value as a document. -/
def print (n : Node) : String := String.ofList (inLine 0 n)

end Yaml

end CommandDesk
