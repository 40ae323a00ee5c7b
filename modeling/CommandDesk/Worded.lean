import CommandDesk.Error
import CommandDesk.Node.Codec

/-!
# Types named by words

Small types whose values each have a word, by which they are written in
documents, typed by a person and printed.
-/

namespace CommandDesk

/-- A type with finitely many values, each named by a word. -/
class Worded (β : Type) where
  all : List β
  word : β → String

export Worded (word)

namespace Worded

variable {β : Type} [Worded β]

/-- The value that a word names. -/
def ofWord? (s : String) : Option β := all.find? fun b => word b = s

/-- The value that a word names, or an error that says what kind of word was expected. -/
def parse (kind s : String) : Except Error β :=
  match ofWord? s with
  | some b => .ok b
  | none => .error (.unknownWord kind s)

instance : Encode β := ⟨fun b => .text (word b)⟩

instance : Decode β := ⟨fun n => n.word?.bind ofWord?⟩

end Worded

end CommandDesk
