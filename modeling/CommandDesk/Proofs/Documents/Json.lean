import CommandDesk.Proofs.Documents.Config

/-!
# JSON documents read back

A value is read back from the JSON tree that is written for it, with the keys as
they were written or sorted (`decode?_tree`). JSON has no form for a
floating-point number that is not finite, and this is all that can be lost: what
is written for a value is a JSON tree exactly if its numbers are finite.
-/

namespace CommandDesk

namespace Json

/-- The value is what is read from its JSON tree, as it is written and with sorted keys. -/
def ReadBack {β : Type} [Encode β] [Decode β] (b : β) : Prop :=
  decode? (tree (encode b)) = some b ∧ decode? (tree (encode b)).sorted = some b

/-- A value is read back if its document is a tree already. -/
theorem readBack_of_isTree {β : Type} [Encode β] [Decode β] [LawfulCodec β] {b : β}
    (h : IsTree (encode b)) : ReadBack b := by
  unfold ReadBack
  rw [tree_eq_self_iff.2 h]
  exact ⟨decode?_encode Node.rearranges_id b, decode?_encode Node.rearranges_sorted b⟩

/-- **Reading undoes writing.** Values whose floating-point numbers are all finite, and values that
have none, are read back from their JSON trees. -/
theorem decode?_tree :
    (∀ c : Command, AllFinite c.floats → ReadBack c) ∧
    (∀ c : Context Float, AllFinite c.floats → ReadBack c) ∧
    (∀ t : Trigger Float, AllFinite t.floats → ReadBack t) ∧
    (∀ r : Confirmation Float, AllFinite r.floats → ReadBack r) ∧
    (∀ m : Mapping Float, AllFinite m.floats → ReadBack m) ∧
    (∀ r : Reply, ReadBack r) ∧ (∀ c : Choice, ReadBack c) ∧ (∀ s : HackSet, ReadBack s) ∧
    ∀ c : Config, AllFinite c.floats → ReadBack c := by
  refine ⟨fun c hc => ?_, fun c hc => ?_, fun t ht => ?_, fun r hr => ?_, fun m hm => ?_,
    fun r => ?_, fun c => ?_, fun s => ?_, fun c hc => ?_⟩
  · exact readBack_of_isTree (c.isTree_encode.2 hc)
  · exact readBack_of_isTree (c.isTree_encode.2 hc)
  · exact readBack_of_isTree (t.isTree_encode.2 ht)
  · exact readBack_of_isTree (r.isTree_encode.2 hr)
  · exact readBack_of_isTree (m.isTree_encode.2 hm)
  · exact readBack_of_isTree r.isTree_encode
  · exact readBack_of_isTree c.isTree_encode
  · exact readBack_of_isTree s.isTree_encode
  · exact readBack_of_isTree (c.isTree_encode.2 hc)

/-- A command whose parameters look like each other. -/
def lookalikes : Command :=
  { Command.ofName "run" with
    params := .ofList [("a", .num 5.0), ("b", .int 5), ("c", .str "5"), ("d", .flag true),
      ("e", .str "true")] }

/-- Parameters keep their kinds, and a configuration without commands does not get the standard
ones. -/
theorem decode?_tree_lookalikes :
    ReadBack lookalikes ∧
    ReadBack ({ mappingConfidence := some 40.0, missingParams := ["to"] } : Context Float) ∧
    ReadBack (.fired 8 (.ambiguousVerb "run" 40.0 90.0 [⟨"run-job", 40.0, none⟩]) :
      Trigger Float) ∧
    ReadBack (.unneeded : Confirmation Float) ∧ ReadBack (.unmatched "run" : Mapping Float) ∧
    ReadBack { Config.standard with commands := [] } := by
  obtain ⟨hcommand, hcontext, htrigger, hconfirmation, hmapping, -, -, -, hconfig⟩ := decode?_tree
  refine ⟨hcommand _ ?_, hcontext _ ?_, htrigger _ ?_, hconfirmation _ ?_, hmapping _ ?_,
    hconfig _ ?_⟩ <;> unfold AllFinite <;> decide

end Json

end CommandDesk
