import CommandDesk.Table
import Mathlib.Data.List.Nodup

/-!
# What a table holds

The entries of a table after an edit, and looking up a key as having an entry
under it: no key has two, since the keys ascend. For the same reason a table is
rebuilt from its entries, in whatever order they come (`ofList_of_perm`). Each edit
is also read through `get?`: what is found under a key is what was set last
(`get?_insertAll`).
-/

namespace CommandDesk

section Dropping

variable {β : Type} {name : β → String} {key : String} {bs : List β}

/-- Where no entry has a key, dropping those that have it drops none. -/
theorem filter_ne_eq_self (h : key ∉ bs.map name) : bs.filter (name · ≠ key) = bs :=
  List.filter_eq_self.2 fun b hb => by
    simpa using fun hname => h (List.mem_map.2 ⟨b, hb, hname⟩)

/-- Whether an entry has a key is seen from the length after dropping those that have it. -/
theorem length_filter_ne_iff :
    ((bs.filter (name · ≠ key)).length != bs.length) = true ↔ key ∈ bs.map name := by
  rw [bne_iff_ne, ne_eq, List.length_filter_eq_length_iff]
  simp

end Dropping

namespace Table

variable {β : Type} {t : Table β} {key : String} {value : β} {e : String × β}

/-- Setting a key adds no entry but its own. -/
theorem mem_insert (h : e ∈ (t.insert key value).entries) :
    e = (key, value) ∨ e ∈ t.entries :=
  mem_setEntry h

theorem isEmpty_insert (t : Table β) (key : String) (value : β) :
    (t.insert key value).isEmpty = false := by
  unfold isEmpty insert setEntry
  split
  · rfl
  · split
    · rfl
    · split <;> rfl

theorem mem_erase (h : e ∈ (t.erase key).entries) : e ∈ t.entries :=
  (List.mem_filter.1 h).1

/-- Setting several keys adds no entries but theirs. -/
theorem mem_insertAll {es : List (String × β)} (h : e ∈ (t.insertAll es).entries) :
    e ∈ es ∨ e ∈ t.entries := by
  induction es generalizing t with
  | nil => exact .inr h
  | cons d es ih =>
    have hstep : e ∈ es ∨ e ∈ (t.insert d.1 d.2).entries := ih h
    rcases hstep with h | h
    · exact .inl (List.mem_cons_of_mem _ h)
    · rcases mem_insert h with rfl | h
      · exact .inl List.mem_cons_self
      · exact .inr h

/-- What is found under a key is an entry. -/
theorem mem_of_get? (h : t.get? key = some value) : (key, value) ∈ t.entries := by
  obtain ⟨⟨k, v⟩, hf, hv⟩ := Option.map_eq_some_iff.1 h
  have hk : k = key := by simpa using List.find?_some hf
  have hmem := List.mem_of_find?_eq_some hf
  rw [hk, show v = value from hv] at hmem
  exact hmem

theorem get?_empty (key : String) : (empty : Table β).get? key = none := rfl

/-! ## Looking up after an edit -/

theorem find?_setEntry (key k : String) (value : β) (es : List (String × β)) :
    (setEntry key value es).find? (·.1 = k) =
      if k = key then some (key, value) else es.find? (·.1 = k) := by
  induction es with
  | nil => by_cases hk : key = k <;> simp [setEntry, hk, eq_comm]
  | cons d es ih =>
    unfold setEntry
    split
    · by_cases hk : key = k <;> simp [hk, eq_comm]
    · split
      · -- the entry that is replaced is the one under the key
        rename_i hd
        by_cases hk : key = k
        · simp [hk]
        · have hdk : ¬ d.1 = k := fun h => hk (hd.trans h)
          simp [hk, hdk, Ne.symm hk]
      · rename_i hne
        rw [List.find?_cons, List.find?_cons, ih]
        by_cases hdk : d.1 = k
        · have hk : ¬ k = key := fun h => hne (h ▸ hdk.symm)
          simp [hdk, hk]
        · simp [hdk]

theorem get?_insert (t : Table β) (key k : String) (value : β) :
    (t.insert key value).get? k = if k = key then some value else t.get? k := by
  have hfind := find?_setEntry key k value t.entries
  unfold get? insert
  rw [hfind]
  split <;> rfl

theorem get?_erase (t : Table β) (key k : String) :
    (t.erase key).get? k = if k = key then none else t.get? k := by
  unfold get? erase
  rw [List.find?_filter]
  split
  · rename_i hk
    have hnone : t.entries.find? (fun e => decide (decide (e.1 ≠ key) = true ∧
        decide (e.1 = k) = true)) = none := by
      simp [List.find?_eq_none, hk]
    rw [hnone]
    rfl
  · rename_i hk
    have hsame : (fun e : String × β => decide (decide (e.1 ≠ key) = true ∧
        decide (e.1 = k) = true)) = fun e => decide (e.1 = k) := by
      funext e
      by_cases he : e.1 = k <;> simp [he, hk]
    rw [hsame]

/-- **Of several values for a key the last counts.** -/
theorem get?_insertAll (t : Table β) (es : List (String × β)) (k : String) :
    (t.insertAll es).get? k = ((es.reverse.find? (·.1 = k)).map (·.2)).or (t.get? k) := by
  induction es generalizing t with
  | nil => rfl
  | cons d es ih =>
    have hcons : t.insertAll (d :: es) = (t.insert d.1 d.2).insertAll es := rfl
    rw [hcons, ih, get?_insert, List.reverse_cons, List.find?_append, Option.map_or,
      Option.or_assoc]
    congr 1
    by_cases hk : d.1 = k
    · simp [hk]
    · have hk' : ¬ k = d.1 := fun h => hk h.symm
      simp [hk, hk']

/-! ## A table of its entries -/

/-- A key has a value exactly when it is one of the keys. -/
theorem contains_iff_mem_keys (t : Table β) : t.contains key = true ↔ key ∈ t.keys := by
  unfold contains get? keys
  simp

/-- Setting a key adds it to the keys. -/
theorem contains_insert_iff (t : Table β) (key k : String) (value : β) :
    (t.insert key value).contains k = true ↔ k = key ∨ t.contains k = true := by
  unfold contains
  rw [get?_insert]
  split <;> simp [*]

/-- A key that is not there is erased without a change. -/
theorem erase_eq_self (h : t.contains key = false) : t.erase key = t := by
  refine ext (filter_ne_eq_self fun hkey => ?_)
  rw [t.contains_iff_mem_keys.2 hkey] at h
  cases h

theorem nodup_keys (t : Table β) : (t.entries.map (·.1)).Nodup :=
  List.pairwise_map.2 (t.ascending.imp Std.ne_of_lt)

/-- Where no key stands twice, what is found under a key is the entry that has it. -/
theorem find?_eq_some_iff {es : List (String × β)} (hnodup : (es.map (·.1)).Nodup) :
    es.find? (·.1 = key) = some e ↔ e ∈ es ∧ e.1 = key := by
  constructor
  · intro h
    exact ⟨List.mem_of_find?_eq_some h, by simpa using List.find?_some h⟩
  · rintro ⟨he, hkey⟩
    have hsome : (es.find? (·.1 = key)).isSome = true := by
      rw [List.find?_isSome]
      exact ⟨e, he, decide_eq_true hkey⟩
    obtain ⟨found, hfound⟩ := Option.isSome_iff_exists.1 hsome
    have hsame : found.1 = e.1 := by
      rw [hkey]
      simpa using List.find?_some hfound
    rw [hfound, List.inj_on_of_nodup_map hnodup (List.mem_of_find?_eq_some hfound) he hsame]

theorem get?_eq_some_iff : t.get? key = some value ↔ (key, value) ∈ t.entries := by
  refine ⟨mem_of_get?, fun h => ?_⟩
  have hfind := (find?_eq_some_iff t.nodup_keys).2 ⟨h, rfl⟩
  unfold get?
  rw [hfind]
  rfl

/-- What is found under a key does not depend on the order of the entries. -/
theorem find?_of_perm {es es' : List (String × β)} (h : es.Perm es')
    (hnodup : (es.map (·.1)).Nodup) (key : String) :
    es.find? (·.1 = key) = es'.find? (·.1 = key) := by
  refine Option.ext fun e => ?_
  rw [find?_eq_some_iff hnodup, find?_eq_some_iff ((h.map _).nodup_iff.1 hnodup), h.mem_iff]

theorem perm_setEntry {es : List (String × β)} (hnew : key ∉ es.map (·.1)) :
    (setEntry key value es).Perm ((key, value) :: es) := by
  induction es with
  | nil => exact .refl _
  | cons d es ih =>
    rw [List.map_cons, List.mem_cons, not_or] at hnew
    obtain ⟨hd, hes⟩ := hnew
    unfold setEntry
    split
    · exact .refl _
    · exact ((ih hes).cons d).trans (.swap _ _ _)

/-- Setting new keys adds their entries. -/
theorem perm_insertAll {es : List (String × β)}
    (hnew : ((t.entries ++ es).map (·.1)).Nodup) :
    (t.insertAll es).entries.Perm (t.entries ++ es) := by
  induction es generalizing t with
  | nil =>
    rw [List.append_nil]
    exact .refl _
  | cons d es ih =>
    have hfirst : d.1 ∉ t.entries.map (·.1) := by
      intro hmem
      rw [List.map_append] at hnew
      exact (List.nodup_append.1 hnew).2.2 d.1 hmem d.1 List.mem_cons_self rfl
    have hset : ((t.insert d.1 d.2).entries ++ es).Perm (t.entries ++ d :: es) :=
      ((perm_setEntry hfirst).append_right es).trans List.perm_middle.symm
    exact (ih ((hset.map _).nodup_iff.2 hnew)).trans hset

/-- **A table is the table of its entries**, in whatever order they come. -/
theorem ofList_of_perm {es : List (String × β)} (h : es.Perm t.entries) : ofList es = t := by
  have hentries : (ofList es).entries.Perm t.entries :=
    (perm_insertAll ((h.map _).nodup_iff.2 t.nodup_keys)).trans h
  refine ext (List.Perm.eq_of_pairwise (fun a b _ _ hab hba => ?_) (ofList es).ascending
    t.ascending hentries)
  exact absurd (String.lt_trans hab hba) (String.lt_irrefl _)

theorem ofList_entries (t : Table β) : ofList t.entries = t := ofList_of_perm (.refl _)

end Table

end CommandDesk
