import CommandDesk.Node.Sorted
import CommandDesk.Proofs.Table
import CommandDesk.Worded
import Mathlib.Data.List.Perm.Basic

/-!
# Values read back from documents

What is written for a value should be read as that value, in whatever order the
entries of the dictionaries stand by then (`Rearranges`). This is a law of each
type (`LawfulCodec`), and it passes from the parts to optional values, lists and
tables. An optional value is written as its content, so it is read back only if
the content never looks like nothing (`NonNull`).
-/

namespace CommandDesk

namespace Node

/-- Whether a node has no nodes inside. -/
def isLeaf : Node → Bool
  | list _ | dict _ => false
  | _ => true

/-- A change of documents that may put the entries of dictionaries in another order, at every
depth, and changes nothing else. -/
structure Rearranges (T : Node → Node) : Prop where
  leaf : ∀ n, n.isLeaf = true → T n = n
  list : ∀ ns, T (.list ns) = .list (ns.map T)
  dict : ∀ es, ∃ es', T (.dict es) = .dict es' ∧ es'.Perm (es.map fun e => (e.1, T e.2))

theorem rearranges_id : Rearranges id where
  leaf _ _ := rfl
  list ns := by rw [List.map_id]; rfl
  dict es := ⟨es, rfl, by simp⟩

/-! ## Sorting -/

theorem perm_insertEntry (e : String × Node) (es : List (String × Node)) :
    (insertEntry e es).Perm (e :: es) := by
  induction es with
  | nil => exact .refl _
  | cons f es ih =>
    unfold insertEntry
    split
    · exact (ih.cons f).trans (.swap _ _ _)
    · exact .refl _

theorem sortedItems_eq_map (ns : List Node) : sortedItems ns = ns.map sorted := by
  induction ns with
  | nil => rw [sortedItems, List.map_nil]
  | cons n ns ih => rw [sortedItems, ih, List.map_cons]

theorem perm_sortedEntries (es : List (String × Node)) :
    (sortedEntries es).Perm (es.map fun e => (e.1, sorted e.2)) := by
  induction es with
  | nil => rw [sortedEntries, List.map_nil]
  | cons e es ih =>
    rw [sortedEntries, List.map_cons]
    exact (perm_insertEntry _ _).trans (ih.cons _)

/-- Sorting the keys is a rearrangement. -/
theorem rearranges_sorted : Rearranges sorted where
  leaf n hn := by
    cases n with
    | list | dict => cases hn
    | null | flag | int | num | text | bare | tagged | other => rw [sorted] <;> simp
  list ns := by rw [sorted, sortedItems_eq_map]
  dict es := ⟨sortedEntries es, by rw [sorted], perm_sortedEntries es⟩

/-! ## One entry apart from the others -/

section

variable {es others : List (String × Node)} {key : String} {n : Node}

/-- The value of a key that only one entry has. -/
theorem valuesOf_of_perm (hes : es.Perm ((key, n) :: others)) (hothers : ∀ e ∈ others, e.1 ≠ key) :
    valuesOf es key = [n] := by
  have hnone : others.filter (·.1 = key) = [] :=
    List.filter_eq_nil_iff.2 fun e he => by simpa using hothers e he
  have hkey := hes.filter (·.1 = key)
  rw [List.filter_cons_of_pos (by simp), hnone] at hkey
  unfold valuesOf
  rw [List.perm_singleton.1 hkey]
  rfl

/-- The entries without that one. -/
theorem filter_ne_of_perm (hes : es.Perm ((key, n) :: others))
    (hothers : ∀ e ∈ others, e.1 ≠ key) : (es.filter (·.1 ≠ key)).Perm others := by
  have hall : others.filter (·.1 ≠ key) = others :=
    List.filter_eq_self.2 fun e he => by simpa using hothers e he
  have hrest := hes.filter (·.1 ≠ key)
  rwa [List.filter_cons_of_neg (by simp), hall] at hrest

end

end Node

open Node (Rearranges)

/-! ## The law -/

/-- Values that are read back from what is written for them. -/
class LawfulCodec (β : Type) [Encode β] [Decode β] : Prop where
  decode?_encode {T : Node → Node} (hT : Rearranges T) (b : β) : decode? (T (encode b)) = some b

export LawfulCodec (decode?_encode)

/-- Values for which never is written what stands for nothing. -/
class NonNull (β : Type) [Encode β] : Prop where
  isNull_encode {T : Node → Node} (hT : Rearranges T) (b : β) : (T (encode b)).isNull = false

/-- Types whose values have different words, each found again. -/
class LawfulWorded (β : Type) [Worded β] : Prop where
  ofWord?_word (b : β) : Worded.ofWord? (word b) = some b

variable {β : Type}

/-- A law of values that are written as leaves. -/
theorem decode?_leaf [Encode β] [Decode β] {T : Node → Node} (hT : Rearranges T) {b : β}
    (hleaf : (encode b).isLeaf = true) (h : decode? (encode b) = some b) :
    decode? (T (encode b)) = some b := by
  rw [hT.leaf _ hleaf, h]

/-- Items that are each read back are read back in a row. -/
theorem mapM_map_eq_some {γ : Type} {w : β → γ} {r : γ → Option β} (h : ∀ b, r (w b) = some b)
    (bs : List β) : (bs.map w).mapM r = some bs := by
  induction bs with
  | nil => rfl
  | cons b bs ih => simp [h, ih]

/-- What is there in another order was written in another order. -/
theorem exists_eq_map_of_perm {γ : Type} {w : β → γ} {bs : List β} {cs : List γ}
    (h : cs.Perm (bs.map w)) : ∃ bs' : List β, cs = bs'.map w ∧ bs'.Perm bs := by
  have hcomp : Relation.Comp (fun cs bs => cs = bs.map w) List.Perm cs bs := by
    rw [List.eq_map_comp_perm]
    exact h
  exact hcomp

/-! ## Scalars -/

instance : LawfulCodec Bool := ⟨fun hT _ => decode?_leaf hT rfl rfl⟩

instance : LawfulCodec String := ⟨fun hT _ => decode?_leaf hT rfl rfl⟩

instance : LawfulCodec Float := ⟨fun hT _ => decode?_leaf hT rfl rfl⟩

theorem Node.natBelow?_int {limit n : Nat} (h : n < limit) :
    (Node.int n).natBelow? limit = some n := by
  have hlimit : (n : Int) < limit := Int.ofNat_lt.2 h
  simp [natBelow?, untagged, int?, natBelow?.below, Option.filter, hlimit]

instance : LawfulCodec UInt64 where
  decode?_encode hT n := by
    refine decode?_leaf hT rfl ?_
    have h := Node.natBelow?_int n.toNat_lt_size
    simp only [encode, decode?, h, Option.map_some, UInt64.ofNat_toNat]

instance : LawfulCodec UInt32 where
  decode?_encode hT n := by
    refine decode?_leaf hT rfl ?_
    have h := Node.natBelow?_int n.toNat_lt_size
    simp only [encode, decode?, h, Option.map_some, UInt32.ofNat_toNat]

instance [Worded β] [LawfulWorded β] : LawfulCodec β :=
  ⟨fun hT b => decode?_leaf hT rfl (LawfulWorded.ofWord?_word b)⟩

theorem isNull_leaf [Encode β] {T : Node → Node} (hT : Rearranges T) {b : β}
    (hleaf : (encode b).isLeaf = true) (h : (encode b).isNull = false) :
    (T (encode b)).isNull = false := by
  rw [hT.leaf _ hleaf, h]

instance : NonNull Float := ⟨fun hT _ => isNull_leaf hT rfl rfl⟩

instance : NonNull String := ⟨fun hT _ => isNull_leaf hT rfl rfl⟩

instance : NonNull UInt64 := ⟨fun hT _ => isNull_leaf hT rfl rfl⟩

instance : NonNull UInt32 := ⟨fun hT _ => isNull_leaf hT rfl rfl⟩

instance [Worded β] : NonNull β := ⟨fun hT _ => isNull_leaf hT rfl rfl⟩

/-! ## Values made of others -/

section

variable [Encode β] [Decode β] [LawfulCodec β]

instance [NonNull β] : LawfulCodec (Option β) where
  decode?_encode {T} hT o := by
    cases o with
    | none => exact decode?_leaf hT rfl rfl
    | some b =>
      have hnull : (T (encode (some b))).isNull = false := NonNull.isNull_encode hT b
      have hread : decode? (T (encode (some b))) = some b := decode?_encode hT b
      unfold decode? instDecodeOption
      simp only [hnull, hread]
      rfl

instance : LawfulCodec (List β) where
  decode?_encode {T} hT bs := by
    have hitems : T (encode bs) = .list (bs.map fun b => T (encode b)) := by
      unfold encode instEncodeList
      rw [hT.list, List.map_map]
      rfl
    rw [hitems]
    exact mapM_map_eq_some (decode?_encode hT) bs

instance : LawfulCodec (Table β) where
  decode?_encode {T} hT t := by
    obtain ⟨es, hes, hperm⟩ := hT.dict (t.entries.map fun e => (e.1, encode e.2))
    rw [List.map_map] at hperm
    obtain ⟨entries, rfl, hentries⟩ := exists_eq_map_of_perm hperm
    have hread := mapM_map_eq_some (r := fun e => (decode? e.2).map (e.1, ·))
      (w := (fun e => (e.1, T e.2)) ∘ fun e : String × β => (e.1, encode e.2))
      (fun e => by simp [decode?_encode hT]) entries
    unfold decode? encode Table.instDecode Table.instEncode
    dsimp only
    rw [hes]
    simp only [Node.untagged, hread, Option.map_some, Table.ofList_of_perm hentries]

end

end CommandDesk
