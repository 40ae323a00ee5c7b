import CommandDesk.Error
import CommandDesk.Node.Codec
import CommandDesk.Text.Blank
import CommandDesk.Text.Cut

/-!
# Input references

The input of a command is named by a kind and an id, written `@kind:id`. The
kind ends at the first colon.
-/

namespace CommandDesk

/-- The object that a command works on. -/
structure InputRef where
  kind : String
  id : String
  deriving DecidableEq, Repr

namespace InputRef

/-- The written form. -/
def text (r : InputRef) : String := "@" ++ r.kind ++ ":" ++ r.id

/-- Read a reference from characters, with the sign in front or without. -/
def ofChars? (s : List Char) : Option InputRef :=
  match Text.splitFirst? ':' (Text.dropInitial '@' (Text.trimChars s)) with
  | some (kind, id) =>
    if kind.isEmpty || id.isEmpty then none else some ⟨String.ofList kind, String.ofList id⟩
  | none => none

/-- Read a reference; blanks around it do not count. -/
def parse? (s : String) : Option InputRef := ofChars? s.toList

/-- Read a reference, or refuse the text. -/
def parse (s : String) : Except Error InputRef :=
  match parse? s with
  | some r => .ok r
  | none => .error (.invalidInputRef s)

instance : Encode InputRef :=
  ⟨fun r => .ofFields [field "kind" r.kind, field "id" r.id]⟩

instance : Decode InputRef where
  decode? n := do
    let r ← Record.read? ["kind", "id"] n
    some ⟨← r.required? "kind", ← r.required? "id"⟩

end InputRef

end CommandDesk
