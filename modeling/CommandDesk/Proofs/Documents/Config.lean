import CommandDesk.Config.Document
import CommandDesk.Proofs.Documents.Answer

/-!
# Configurations read back

Every part of a configuration has a standard value that it takes when it is left
out, and it is written even when it is empty, so it is not mistaken for one that
was left out. Of a command only what is empty by default is ever left out.
-/

namespace CommandDesk

open Json (IsTree AllFinite)

/-! ## Hacks -/

instance : LawfulWorded Style := ⟨fun s => by cases s <;> rfl⟩

instance : LawfulWorded Position := ⟨fun p => by cases p <;> rfl⟩

instance : LawfulCodec Hack where
  decode?_encode hT h := by
    refine Record.read?_bind hT (by simp) (by simp) ?_
    simp [Record.required?_eq, Record.defaulted?_eq, hT]

instance : LawfulCodec HackSet where
  decode?_encode {T} hT s := by
    have hhacks : decode? (T (encode s.hacks)) = some s.hacks := decode?_encode hT s.hacks
    exact congrArg (Option.map HackSet.mk) hhacks

instance : LawfulCodec InjectOptions where
  decode?_encode hT o := by
    refine Record.read?_bind hT (by simp) (by simp) ?_
    simp [Record.defaulted?_eq, hT]

instance : LawfulCodec Integration where
  decode?_encode hT o := by
    refine Record.read?_bind hT (by simp) (by simp) ?_
    simp [Record.defaulted?_eq, hT]

instance : LawfulCodec HackChoice where
  decode?_encode hT h := by
    refine Record.read?_bind hT (by simp) (by simp) ?_
    simp [Record.defaulted?_eq, hT]

/-! ## Rules and commands -/

section

variable {α : Type} [Grade α] [Encode α] [Decode α] [LawfulCodec α]

instance : LawfulCodec (MapRules α) where
  decode?_encode hT r := by
    refine Record.read?_bind hT (by simp) (by simp) ?_
    simp [Record.defaulted?_eq, hT]

instance : LawfulCodec (Protocol α) where
  decode?_encode hT p := by
    refine Record.read?_bind hT (by simp) (by simp) ?_
    simp [Record.defaulted?_eq, hT]

end

instance : LawfulCodec CommandEntry where
  decode?_encode hT e := by
    refine Record.read?_bind hT (by simp) (by simp) ?_
    simp [Record.required?_eq, Record.defaulted?_eq, hT]

instance : LawfulCodec Config.HistoryPart where
  decode?_encode hT h := by
    refine Record.read?_bind hT (by simp) (by simp) ?_
    simp [Record.defaulted?_eq, hT]

instance : LawfulCodec Config where
  decode?_encode hT c := by
    refine Record.read?_bind hT (by simp) (by simp) ?_
    simp [Record.defaulted?_eq, hT]

/-! ## Floating-point numbers -/

/-- The floating-point numbers in a configuration. -/
def Config.floats (c : Config) : List Float :=
  [c.mapping.direct, c.mapping.reject, c.protocol.confidence] ++
    c.commands.flatMap fun e => e.synonyms.entries.map (·.2)

theorem Hack.isTree_encode (h : Hack) : IsTree (encode h) := by
  refine Json.isTree_ofFields.2 ?_
  simp

theorem HackSet.isTree_encode (s : HackSet) : IsTree (encode s) :=
  (Json.isTree_items s.hacks).2 fun h _ => h.isTree_encode

theorem InjectOptions.isTree_encode (o : InjectOptions) : IsTree (encode o) := by
  refine Json.isTree_ofFields.2 ?_
  simp

theorem Integration.isTree_encode (o : Integration) : IsTree (encode o) := by
  refine Json.isTree_ofFields.2 ?_
  simp

theorem HackChoice.isTree_encode (h : HackChoice) : IsTree (encode h) := by
  refine Json.isTree_ofFields.2 ?_
  simp

theorem MapRules.isTree_encode (r : MapRules Float) :
    IsTree (encode r) ↔ r.direct.isFinite = true ∧ r.reject.isFinite = true := by
  refine Json.isTree_ofFields.trans ?_
  simp

theorem Protocol.isTree_encode (p : Protocol Float) :
    IsTree (encode p) ↔ p.confidence.isFinite = true := by
  refine Json.isTree_ofFields.trans ?_
  simp

theorem CommandEntry.isTree_encode (e : CommandEntry) :
    IsTree (encode e) ↔ ∀ s ∈ e.synonyms.entries, s.2.isFinite = true := by
  refine Json.isTree_ofFields.trans ?_
  simp

theorem Config.HistoryPart.isTree_encode (h : HistoryPart) : IsTree (encode h) := by
  refine Json.isTree_ofFields.2 ?_
  simp

theorem Config.isTree_encode (c : Config) : IsTree (encode c) ↔ AllFinite c.floats := by
  refine Json.isTree_ofFields.trans ?_
  simp [floats, MapRules.isTree_encode, Protocol.isTree_encode, CommandEntry.isTree_encode,
    HackChoice.isTree_encode, InjectOptions.isTree_encode, Integration.isTree_encode,
    HistoryPart.isTree_encode, and_assoc]

end CommandDesk
