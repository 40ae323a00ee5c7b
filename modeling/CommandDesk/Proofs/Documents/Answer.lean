import CommandDesk.Mapping
import CommandDesk.Confirmation
import CommandDesk.Proofs.Documents.Check

/-!
# What is asked and answered, read back

A reply and a choice are a number or a text, without a mark of which: a number is
read as such, and no text is ever read as a number. What is absent from a
confirmation or a mapping is written as null.
-/

namespace CommandDesk

open Json (IsTree AllFinite)

/-! ## Numbers or texts -/

instance : LawfulCodec Reply where
  decode?_encode {T} hT r := by
    cases r with
    | index i =>
      have hindex : decode? (T (encode i)) = some i := decode?_encode hT i
      show decode? (T (encode i)) = some (Reply.index i)
      unfold decode? instDecodeReply
      simp only [hindex]
    | text s => exact decode?_leaf hT rfl rfl

instance : LawfulCodec Choice where
  decode?_encode {T} hT c := by
    cases c with
    | index i =>
      have hindex : decode? (T (encode i)) = some i := decode?_encode hT i
      show decode? (T (encode i)) = some (Choice.index i)
      unfold decode? instDecodeChoice
      simp only [hindex]
    | command s => exact decode?_leaf hT rfl rfl

instance : NonNull Choice where
  isNull_encode hT c := by
    cases c <;> exact isNull_leaf hT rfl rfl

/-! ## Confirmations and mappings -/

instance : LawfulWorded Risk := ⟨fun r => by cases r <;> rfl⟩

instance : LawfulWorded Mode := ⟨fun m => by cases m <;> rfl⟩

instance : LawfulWorded Status := ⟨fun s => by cases s <;> rfl⟩

instance : NonNull Command := ⟨fun hT _ => Record.isNull_ofFields hT⟩

section

variable {α : Type} [Encode α] [Decode α] [LawfulCodec α]

instance : LawfulCodec (Suggestion α) where
  decode?_encode hT s := by
    refine Record.read?_bind hT (by simp) (by simp) ?_
    simp [Record.required?_eq, Record.defaulted?_eq, hT]

instance : LawfulCodec (Confirmation α) where
  decode?_encode hT r := by
    refine Record.read?_bind hT (by simp) (by simp) ?_
    simp [Record.required?_eq, Record.optional?_eq, hT]

instance : LawfulCodec (Mapping α) where
  decode?_encode hT m := by
    refine Record.read?_bind hT (by simp) (by simp) ?_
    simp [Record.required?_eq, Record.defaulted?_eq, Record.optional?_eq, hT]

end

/-! ## Floating-point numbers -/

/-- The floating-point numbers in a confirmation. -/
def Confirmation.floats (r : Confirmation Float) : List Float :=
  (r.command.toList.flatMap Command.floats) ++ r.suggestions.map (·.confidence)

/-- The floating-point numbers in a mapping. -/
def Mapping.floats (m : Mapping Float) : List Float :=
  m.confidence :: m.alternatives.flatMap Candidate.floats

theorem Reply.isTree_encode (r : Reply) : IsTree (encode r) := by
  cases r with
  | index i => exact Json.isTree_uint64 i
  | text s => exact Json.isTree_string s

theorem Choice.isTree_encode (c : Choice) : IsTree (encode c) := by
  cases c with
  | index i => exact Json.isTree_uint64 i
  | command s => exact Json.isTree_string s

theorem Suggestion.isTree_encode (s : Suggestion Float) :
    IsTree (encode s) ↔ s.confidence.isFinite = true := by
  refine Json.isTree_ofFields.trans ?_
  simp

theorem Confirmation.isTree_encode (r : Confirmation Float) :
    IsTree (encode r) ↔ AllFinite r.floats := by
  refine Json.isTree_ofFields.trans ?_
  simp [floats, Command.isTree_encode, Suggestion.isTree_encode, Choice.isTree_encode]

theorem Mapping.isTree_encode (m : Mapping Float) : IsTree (encode m) ↔ AllFinite m.floats := by
  refine Json.isTree_ofFields.trans ?_
  simp [floats, Candidate.isTree_encode]

end CommandDesk
