import CommandDesk.Hack.Basic
import CommandDesk.Worded

/-!
# Injecting hacks into prompts

A hack is laid out in one of four styles and placed before a prompt, behind it,
or on both sides. The boxed style frames the text: its lines are cut to the
width of the box, and every row is as wide as the frame.
-/

namespace CommandDesk

/-- How a hack is laid out. -/
inductive Style where
  | minimal
  | default
  | boxed
  | highlight
  deriving DecidableEq, Repr

namespace Style

instance : Worded Style where
  all := [minimal, default, boxed, highlight]
  word
    | minimal => "minimal"
    | default => "default"
    | boxed => "boxed"
    | highlight => "highlight"

/-- The style that a word names. -/
def parse (s : String) : Except Error Style := Worded.parse "injection style" s

end Style

/-- Where a hack is placed. -/
inductive Position where
  | prepend
  | append
  | wrap
  deriving DecidableEq, Repr

namespace Position

instance : Worded Position where
  all := [prepend, append, wrap]
  word
    | prepend => "prepend"
    | append => "append"
    | wrap => "wrap"

/-- The position that a word names. -/
def parse (s : String) : Except Error Position := Worded.parse "injection position" s

end Position

/-- How hacks are injected. -/
structure InjectOptions where
  style : Style := .default
  position : Position := .append
  enhanced : Bool := false
  deriving DecidableEq, BEq

namespace InjectOptions

instance : Encode InjectOptions where
  encode o := .ofFields
    [field "style" o.style, field "position" o.position, field "enhanced" o.enhanced]

instance : Decode InjectOptions where
  decode? n := do
    let r ← Record.read? ["style", "position", "enhanced"] n
    some
      { style := ← r.defaulted? "style" Style.default
        position := ← r.defaulted? "position" Position.append
        enhanced := ← r.defaulted? "enhanced" false }

end InjectOptions

/-- A prompt before and after a hack was injected. -/
structure Injection where
  prompt : String
  injected : String
  hackId : String
  style : Style
  position : Position
  deriving DecidableEq

namespace Injection

/-- Whether the prompt was changed. -/
def wasModified (i : Injection) : Bool := i.prompt ≠ i.injected

instance : Encode Injection where
  encode i := .ofFields
    [field "original" i.prompt, field "injected" i.injected, field "hack_id" i.hackId,
      field "style" i.style, field "position" i.position]

/-! ## Layout -/

/-- The length of the rules of the default style. -/
def ruleWidth : Nat := 41

/-- The length of the rules of a box. -/
def boxWidth : Nat := 55

/-- The width of the text in a box. -/
def cellWidth : Nat := boxWidth - 4

/-- A horizontal line. -/
def rule (width : Nat) : List Char := List.replicate width '─'

/-- The rows of a box that hold one line of text. An empty line has one row. -/
def boxRows (line : List Char) : List (List Char) :=
  let cells := if line.isEmpty then [[]] else Text.chunks cellWidth line
  cells.map fun cell => ['│', ' '] ++ Text.padRight cellWidth cell ++ [' ', ' ', ' ', '│']

/-- The rows of a box that hold a text. -/
def boxBody (text : List Char) : List (List Char) := (Text.linesOf text).flatMap boxRows

/-- All rows of a box: the frame, the title, and the text. -/
def boxLines (title text : List Char) : List (List Char) :=
  [['╭'] ++ rule boxWidth ++ ['╮'],
    ['│', ' '] ++ Text.padCentre (boxWidth - 2) title ++ [' ', '│'],
    ['├'] ++ rule boxWidth ++ ['┤']]
  ++ boxBody text ++ [['╰'] ++ rule boxWidth ++ ['╯']]

/-- A text in a box with a title. -/
def boxed (title text : String) : String :=
  Text.joinLines ((boxLines title.toList text.toList).map String.ofList)

/-- A hack as it is placed into a prompt. -/
def block (h : Hack) (style : Style) (enhanced : Bool) : String :=
  let text := h.text enhanced
  match style with
  | .minimal => text
  | .default =>
    let line := String.ofList (rule ruleWidth)
    Text.joinLines [line, h.name, line, text, line]
  | .boxed => boxed h.name text
  | .highlight =>
    Text.joinLines [">>> " ++ h.name ++ " <<<", text, ">>> end of " ++ h.name ++ " <<<"]

/-- Place a hack into a prompt. -/
def inject (prompt : String) (h : Hack) (o : InjectOptions) : Injection :=
  let b := block h o.style o.enhanced
  let injected := match o.position with
    | .prepend => b ++ "\n\n" ++ prompt
    | .append => prompt ++ "\n\n" ++ b
    | .wrap => b ++ "\n\n" ++ prompt ++ "\n\n" ++ b
  ⟨prompt, injected, h.id, o.style, o.position⟩

end Injection

namespace Hack

/-- The name, the postscript and the hints of a hack, for a person to read. -/
def preview (h : Hack) : String :=
  let fallback := match h.fallback with
    | some f => "Fallback: " ++ Text.trim f ++ "\n"
    | none => ""
  let hints := if h.useWhen.isEmpty then ""
    else "Use when:\n" ++ String.join (h.useWhen.map fun hint => "  - " ++ hint ++ "\n")
  h.name ++ "\n" ++ String.ofList (Injection.rule 50) ++ "\n" ++ Text.trim h.postscript ++ "\n"
    ++ fallback ++ hints

end Hack

end CommandDesk
