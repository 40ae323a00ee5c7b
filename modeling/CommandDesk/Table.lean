import CommandDesk.Node.Codec

/-!
# Tables

A table maps texts to values and is kept in ascending order of its keys, so two
tables with the same content are equal. Keys are compared by their code points.
-/

namespace CommandDesk

/-- A map from texts, in ascending order of keys. -/
structure Table (β : Type) where
  entries : List (String × β)
  ascending : entries.Pairwise fun a b => a.1 < b.1

namespace Table

variable {β : Type}

theorem ext {s t : Table β} (h : s.entries = t.entries) : s = t := by
  cases s; cases t; cases h; rfl

instance [DecidableEq β] : DecidableEq (Table β) := fun s t =>
  if h : s.entries = t.entries then isTrue (ext h)
  else isFalse fun e => h (e ▸ rfl)

instance [BEq β] : BEq (Table β) := ⟨fun s t => s.entries == t.entries⟩

/-- The table without entries. -/
def empty : Table β := ⟨[], .nil⟩

instance : Inhabited (Table β) := ⟨empty⟩

instance : EmptyCollection (Table β) := ⟨empty⟩

/-- The value under a key. -/
def get? (t : Table β) (key : String) : Option β :=
  (t.entries.find? (·.1 = key)).map (·.2)

/-- Whether the key has a value. -/
def contains (t : Table β) (key : String) : Bool := (t.get? key).isSome

/-- The keys, ascending. -/
def keys (t : Table β) : List String := t.entries.map (·.1)

/-- The number of entries. -/
def size (t : Table β) : Nat := t.entries.length

/-- Whether there is no entry. -/
def isEmpty (t : Table β) : Bool := t.entries.isEmpty

/-! ## Setting and erasing -/

/-- Set a key in a list of entries ascending by key. -/
def setEntry (key : String) (value : β) : List (String × β) → List (String × β)
  | [] => [(key, value)]
  | e :: es =>
    if key < e.1 then (key, value) :: e :: es
    else if key = e.1 then (key, value) :: es
    else e :: setEntry key value es

theorem mem_setEntry {key : String} {value : β} {es : List (String × β)} {e : String × β}
    (h : e ∈ setEntry key value es) : e = (key, value) ∨ e ∈ es := by
  induction es with
  | nil => simpa [setEntry] using h
  | cons d ds ih =>
    unfold setEntry at h
    split at h
    · simpa using h
    · split at h
      · rcases List.mem_cons.1 h with h | h
        · exact .inl h
        · exact .inr (List.mem_cons_of_mem _ h)
      · rcases List.mem_cons.1 h with h | h
        · exact .inr (h ▸ List.mem_cons_self)
        · exact (ih h).imp_right (List.mem_cons_of_mem _)

theorem ascending_setEntry {key : String} {value : β} {es : List (String × β)}
    (h : es.Pairwise fun a b => a.1 < b.1) :
    (setEntry key value es).Pairwise fun a b => a.1 < b.1 := by
  induction es with
  | nil => simp [setEntry]
  | cons d ds ih =>
    obtain ⟨hd, hds⟩ := List.pairwise_cons.1 h
    unfold setEntry
    split
    · rename_i hlt
      refine List.pairwise_cons.2 ⟨fun e he => ?_, h⟩
      rcases List.mem_cons.1 he with rfl | he
      · exact hlt
      · exact String.lt_trans hlt (hd e he)
    · split
      · rename_i heq
        exact List.pairwise_cons.2 ⟨fun e he => heq ▸ hd e he, hds⟩
      · rename_i hlt hne
        refine List.pairwise_cons.2 ⟨fun e he => ?_, ih hds⟩
        rcases mem_setEntry he with rfl | he
        · exact Std.lt_of_le_of_ne (String.not_lt.1 hlt) (Ne.symm hne)
        · exact hd e he

/-- Set the value of a key. -/
def insert (t : Table β) (key : String) (value : β) : Table β :=
  ⟨setEntry key value t.entries, ascending_setEntry t.ascending⟩

/-- Remove a key. -/
def erase (t : Table β) (key : String) : Table β :=
  ⟨t.entries.filter (·.1 ≠ key), t.ascending.filter _⟩

/-- Set every key of a list in turn. -/
def insertAll (t : Table β) (entries : List (String × β)) : Table β :=
  entries.foldl (fun t e => t.insert e.1 e.2) t

/-- The table of a list of entries; of several with one key the last counts. -/
def ofList (entries : List (String × β)) : Table β := empty.insertAll entries

instance [Encode β] : Encode (Table β) :=
  ⟨fun t => .dict (t.entries.map fun e => (e.1, encode e.2))⟩

instance [Decode β] : Decode (Table β) where
  decode? n := match n.untagged with
    | .dict entries => (entries.mapM fun e => (decode? e.2).map (e.1, ·)).map ofList
    | .bare s => if s = "" then some empty else none
    | _ => none

end Table

/-- A field that is left out when the table is empty. -/
def fieldIfEntries {β : Type} [Encode β] (name : String) (t : Table β) :
    Option (String × Node) :=
  if t.isEmpty then none else some (name, encode t)

end CommandDesk
