import CommandDesk.Proofs.Documents.Command
import CommandDesk.Trigger

/-!
# What is known and what was found, read back

The signals around a command and the outcome of a check. Every signal is left out
of the document when it is absent, and the recent resources have an older name
that must not get in the way. Evidence is told by the kind that stands among its
fields.
-/

namespace CommandDesk

open Json (IsTree AllFinite)
open Node (Rearranges)

section

variable {α : Type} [Encode α] [Decode α] [LawfulCodec α]

/-! ## Signals -/

instance : LawfulCodec (Candidate α) where
  decode?_encode hT c := by
    refine Record.read?_bind hT (by simp) (by simp) ?_
    simp [Record.required?_eq, Record.defaulted?_eq, hT]

instance : LawfulCodec Failure where
  decode?_encode hT f := by
    refine Record.read?_bind hT (by simp) (by simp) ?_
    simp [Record.defaulted?_eq, hT]

instance : NonNull Failure := ⟨fun hT _ => Record.isNull_ofFields hT⟩

instance [NonNull α] : LawfulCodec (Recovery α) where
  decode?_encode hT o := by
    refine Record.read?_bind hT (by simp) (by simp) ?_
    simp [Record.required?_eq, Record.defaulted?_eq, hT]

instance [NonNull α] : LawfulCodec (Context α) where
  decode?_encode hT c := by
    refine Record.ofNode?_bind hT ?_ ?_ ?_
    · simp [Context.fieldNames, Record.Fits]
    · simp [Context.fieldNames]
    · simp [Record.defaulted?_eq, hT]

/-! ## Outcomes -/

instance : LawfulWorded TriggerKind := ⟨fun k => by cases k <;> rfl⟩

instance : LawfulWorded LargeCause := ⟨fun c => by cases c <;> rfl⟩

/-- Evidence is read back from its fields when the kind is known. -/
theorem Evidence.ofKind?_fields [NonNull α] {T : Node → Node} (hT : Rearranges T)
    (e : Evidence α) {es : List (String × Node)}
    (hes : es.Perm ((e.fields.map (changeField T)).filterMap id)) :
    ofKind? e.kind (.dict es) = some e := by
  cases e with
  | none => rfl
  | _ =>
    refine Record.read?_bind_dict ?_ ?_ hes ?_
    · simp [fields]
    · simp
    · simp [fields, Record.required?_eq, Record.optional?_eq, hT]

omit [Decode α] [LawfulCodec α] in
/-- No field of evidence is taken for its kind. -/
theorem Evidence.fields_ne_kind (T : Node → Node) (e : Evidence α) :
    ∀ f ∈ (e.fields.map (changeField T)).filterMap id, f.1 ≠ "kind" := by
  cases e <;> simp [fields, changeField, field]

instance [NonNull α] : LawfulCodec (Evidence α) where
  decode?_encode {T} hT e := by
    obtain ⟨es, hes, hperm⟩ := Record.exists_dict hT (field "kind" e.kind :: e.fields)
    have hsplit : es.Perm (("kind", .text (word e.kind)) ::
        (e.fields.map (changeField T)).filterMap id) := by
      have hkind : changeField T (field "kind" e.kind) = some ("kind", .text (word e.kind)) :=
        congrArg (fun n => some ("kind", n)) (hT.leaf _ rfl)
      rw [List.map_cons, hkind] at hperm
      exact hperm
    have hvalues := Node.valuesOf_of_perm hsplit (Evidence.fields_ne_kind T e)
    have hfields := Node.filter_ne_of_perm hsplit (Evidence.fields_ne_kind T e)
    have hread := Evidence.ofKind?_fields hT e hfields
    show decode? (T (.ofFields (field "kind" e.kind :: e.fields))) = some e
    rw [hes]
    unfold decode? Evidence.instDecode
    simp only [hvalues, LawfulWorded.ofWord?_word, Option.bind_eq_bind, Option.bind_some, hread]

instance [NonNull α] : LawfulCodec (Trigger α) where
  decode?_encode hT t := by
    refine Record.read?_bind hT (by simp) (by simp) ?_
    simp [Record.required?_eq, hT]

end

/-! ## Floating-point numbers -/

/-- The floating-point numbers in a candidate. -/
def Candidate.floats (c : Candidate Float) : List Float := [c.confidence]

/-- The floating-point numbers in a recovery. -/
def Recovery.floats (o : Recovery Float) : List Float := o.confidence.toList

/-- The floating-point numbers among the signals. -/
def Context.floats (c : Context Float) : List Float :=
  c.mappingConfidence.toList ++ c.candidates.flatMap Candidate.floats ++
    c.recoveries.flatMap Recovery.floats

/-- The floating-point numbers in evidence. -/
def Evidence.floats : Evidence Float → List Float
  | ambiguousVerb _ confidence threshold candidates =>
    confidence :: threshold :: candidates.flatMap Candidate.floats
  | previousError _ recoveries => recoveries.flatMap Recovery.floats
  | none | highRisk .. | inputError .. | largeTask .. | missingRequired _ => []

/-- The floating-point numbers in the outcome of a check. -/
def Trigger.floats (t : Trigger Float) : List Float := t.evidence.floats

theorem Candidate.isTree_encode (c : Candidate Float) :
    IsTree (encode c) ↔ AllFinite c.floats := by
  refine Json.isTree_ofFields.trans ?_
  simp [floats]

theorem Failure.isTree_encode (f : Failure) : IsTree (encode f) := by
  refine Json.isTree_ofFields.2 ?_
  simp

theorem Recovery.isTree_encode (o : Recovery Float) :
    IsTree (encode o) ↔ AllFinite o.floats := by
  refine Json.isTree_ofFields.trans ?_
  simp [floats]

theorem Context.isTree_encode (c : Context Float) : IsTree (encode c) ↔ AllFinite c.floats := by
  refine Json.isTree_ofFields.trans ?_
  simp [floats, Candidate.isTree_encode, Failure.isTree_encode, Recovery.isTree_encode]

theorem Evidence.isTree_encode (e : Evidence Float) : IsTree (encode e) ↔ AllFinite e.floats := by
  refine Json.isTree_ofFields.trans ?_
  cases e <;>
    simp [fields, floats, Candidate.isTree_encode, Failure.isTree_encode, Recovery.isTree_encode]

theorem Trigger.isTree_encode (t : Trigger Float) : IsTree (encode t) ↔ AllFinite t.floats := by
  refine Json.isTree_ofFields.trans ?_
  simp [floats, Evidence.isTree_encode]

end CommandDesk
