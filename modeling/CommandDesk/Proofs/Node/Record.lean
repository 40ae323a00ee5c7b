import CommandDesk.Proofs.Node.Codec
import Mathlib.Data.List.Forall2

/-!
# Records read back from documents

A record is written as a dictionary of those of its fields that are present, each
under the first of its names. If no name belongs to two fields, the record that
is read has exactly the fields that were written (`ofNode?_dict`). What a field
holds is then looked up field by field: a field that was written is read back,
and one that was left out takes the default that it was left out for. A record
type is lawful when this gives its values back (`read?_bind`).
-/

namespace CommandDesk

open Node (Rearranges)

/-- A field that stands under a name, if it is written. -/
def Named (name : String) (f : Option (String × Node)) : Prop := ∀ e ∈ f, e.1 = name

section

variable {β : Type} [Encode β] {name : String}

@[simp] theorem named_field (b : β) : Named name (field name b) := by
  simp [Named, field]

@[simp] theorem named_fieldIfSome (o : Option β) : Named name (fieldIfSome name o) := by
  cases o <;> simp [Named, fieldIfSome]

@[simp] theorem named_fieldIfAny (bs : List β) : Named name (fieldIfAny name bs) := by
  cases bs <;> simp [Named, fieldIfAny]

@[simp] theorem named_fieldIfEntries (t : Table β) : Named name (fieldIfEntries name t) := by
  unfold fieldIfEntries
  split <;> simp [Named]

end

/-- A field after a change of what it holds. -/
def changeField (T : Node → Node) (f : Option (String × Node)) : Option (String × Node) :=
  f.map fun e => (e.1, T e.2)

theorem Named.changeField {name : String} {f : Option (String × Node)} (h : Named name f)
    (T : Node → Node) : Named name (changeField T f) := by
  intro e he
  obtain ⟨d, hd, rfl⟩ := Option.map_eq_some_iff.1 he
  exact h d hd

namespace Record

variable {names : List (List String)} {fs : List (Option (String × Node))}

/-- The record of the fields that were written. -/
def ofFields (fs : List (Option (String × Node))) : Record := ⟨fs.filterMap id, false⟩

/-! ## Reading what was written -/

/-- A field stands under the first of its names, if it is written. -/
def Fits (ns : List String) (f : Option (String × Node)) : Prop :=
  ns ≠ [] ∧ Named (ns.headD "") f

theorem Fits.mem {ns : List String} {f : Option (String × Node)} (h : Fits ns f)
    {e : String × Node} (he : e ∈ f) : e.1 ∈ ns := by
  rw [h.2 e he, List.headD_eq_head?_getD, List.head?_eq_some_head h.1]
  exact List.head_mem h.1

/-- A field is picked if it is all that stands under its names. -/
theorem Fits.pick?_eq_some {es : List (String × Node)} {ns : List String}
    {f : Option (String × Node)} (h : Fits ns f)
    (hall : es.filter (fun e => ns.contains e.1) = f.toList) : pick? es ns = some f := by
  unfold pick?
  rw [hall]
  cases f with
  | none => rfl
  | some e =>
    have he : e.1 = ns.headD "" := h.2 e rfl
    rw [Option.toList_some]
    dsimp only
    rw [← he]

/-- What was written for fields with other names does not count. -/
theorem filter_eq_nil {ns : List String} (hfs : List.Forall₂ Fits names fs)
    (hns : ∀ ms ∈ names, ns.Disjoint ms) :
    (fs.filterMap id).filter (fun e => ns.contains e.1) = [] := by
  induction hfs with
  | nil => rfl
  | @cons ms f names fs hf _ ih =>
    obtain ⟨hhead, hrest⟩ := List.forall_mem_cons.1 hns
    cases f with
    | none => exact ih hrest
    | some e =>
      have hother : ¬ e.1 ∈ ns := fun hmem => hhead hmem (hf.mem rfl)
      rw [List.filterMap_cons_some (f := id) rfl, List.filter_cons_of_neg (by simpa using hother)]
      exact ih hrest

/-- **Every field is picked as it was written**, also after fields with other names and in any
order. -/
theorem mapM_pick? (hfs : List.Forall₂ Fits names fs) (hnames : names.Pairwise List.Disjoint)
    {before es : List (String × Node)} (hbefore : ∀ e ∈ before, ∀ ns ∈ names, e.1 ∉ ns)
    (hes : es.Perm (before ++ fs.filterMap id)) : names.mapM (pick? es) = some fs := by
  induction hfs generalizing before with
  | nil => rfl
  | @cons ns f names fs hf hfs ih =>
    obtain ⟨hdisjoint, hnames⟩ := List.pairwise_cons.1 hnames
    have hsplit : before ++ (f :: fs).filterMap id = before ++ f.toList ++ fs.filterMap id := by
      cases f <;> simp
    rw [hsplit] at hes
    have hpick : pick? es ns = some f := by
      have hnone : (before.filter fun e => ns.contains e.1) = [] := by
        simpa using fun k n hmem => hbefore (k, n) hmem ns List.mem_cons_self
      have hself : (f.toList.filter fun e => ns.contains e.1) = f.toList :=
        List.filter_eq_self.2 fun e he =>
          List.contains_iff_mem.2 (hf.mem (Option.mem_toList.1 he))
      have hall := hes.filter fun e => ns.contains e.1
      rw [List.filter_append, List.filter_append, hnone, hself, filter_eq_nil hfs hdisjoint,
        List.nil_append, List.append_nil] at hall
      refine hf.pick?_eq_some ?_
      -- at most one entry is left, so there is but one order
      cases f with
      | none => exact hall.eq_nil
      | some e => exact List.perm_singleton.1 hall
    have hafter : ∀ e ∈ before ++ f.toList, ∀ ms ∈ names, e.1 ∉ ms := by
      intro e he ms hms
      rcases List.mem_append.1 he with he | he
      · exact hbefore e he ms (List.mem_cons_of_mem _ hms)
      · exact hdisjoint ms hms (hf.mem (Option.mem_toList.1 he))
    rw [List.mapM_cons, hpick, ih hnames hafter hes]
    rfl

/-- **The record that is read** has the fields that were written. -/
theorem ofNode?_dict (hfs : List.Forall₂ Fits names fs) (hnames : names.Pairwise List.Disjoint)
    {es : List (String × Node)} (hes : es.Perm (fs.filterMap id)) :
    ofNode? names (.dict es) = some (ofFields fs) := by
  have hpick := mapM_pick? hfs hnames (List.forall_mem_nil _) hes
  unfold ofNode? ofFields
  simp only [Node.untagged, hpick]
  rfl

/-! ## Records in any order -/

/-- What a rearrangement makes of a record. -/
theorem exists_dict {T : Node → Node} (hT : Rearranges T) (fs : List (Option (String × Node))) :
    ∃ es, T (.ofFields fs) = .dict es ∧ es.Perm ((fs.map (changeField T)).filterMap id) := by
  obtain ⟨es, hes, hperm⟩ := hT.dict (fs.filterMap id)
  rw [List.map_filterMap] at hperm
  rw [List.filterMap_map]
  exact ⟨es, hes, hperm⟩

/-- What is written for a record never looks like nothing. -/
theorem isNull_ofFields {T : Node → Node} (hT : Rearranges T) :
    (T (.ofFields fs)).isNull = false := by
  obtain ⟨es, hes, -⟩ := exists_dict hT fs
  rw [hes]
  rfl

section

variable {T : Node → Node} {β : Type} {read : Record → Option β} {b : β}
variable {es : List (String × Node)} {keys : List String}

theorem ofNode?_bind_dict (hfs : List.Forall₂ Fits names fs)
    (hnames : names.Pairwise List.Disjoint)
    (hes : es.Perm ((fs.map (changeField T)).filterMap id))
    (hread : read (ofFields (fs.map (changeField T))) = some b) :
    (ofNode? names (.dict es)).bind read = some b := by
  have hfits : List.Forall₂ Fits names (fs.map (changeField T)) :=
    List.forall₂_map_right_iff.2 (hfs.imp fun _ _ h => ⟨h.1, h.2.changeField T⟩)
  rw [ofNode?_dict hfits hnames hes]
  exact hread

/-- **A record is read back** if that is what its fields give. -/
theorem ofNode?_bind (hT : Rearranges T) (hfs : List.Forall₂ Fits names fs)
    (hnames : names.Pairwise List.Disjoint)
    (hread : read (ofFields (fs.map (changeField T))) = some b) :
    (ofNode? names (T (.ofFields fs))).bind read = some b := by
  obtain ⟨es, hes, hperm⟩ := exists_dict hT fs
  rw [hes]
  exact ofNode?_bind_dict hfs hnames hperm hread

/-- A record whose fields have one name each. -/
theorem read?_bind_dict (hfs : List.Forall₂ Named keys fs) (hkeys : keys.Nodup)
    (hes : es.Perm ((fs.map (changeField T)).filterMap id))
    (hread : read (ofFields (fs.map (changeField T))) = some b) :
    (read? keys (.dict es)).bind read = some b := by
  refine ofNode?_bind_dict ?_ ?_ hes hread
  · rw [List.forall₂_map_left_iff]
    exact hfs.imp fun _ _ h => ⟨List.cons_ne_nil _ _, h⟩
  · rw [List.pairwise_map]
    exact hkeys.imp fun h => List.disjoint_singleton.2 (by simpa using h.symm)

theorem read?_bind (hT : Rearranges T) (hfs : List.Forall₂ Named keys fs) (hkeys : keys.Nodup)
    (hread : read (ofFields (fs.map (changeField T))) = some b) :
    (read? keys (T (.ofFields fs))).bind read = some b := by
  obtain ⟨es, hes, hperm⟩ := exists_dict hT fs
  rw [hes]
  exact read?_bind_dict hfs hkeys hperm hread

end

/-! ## Looking up a field -/

section

variable {T : Node → Node} {β : Type} [Encode β] {key name : String}

theorem find?_nil : (ofFields []).find? name = none := rfl

theorem find?_named {f : Option (String × Node)} (h : Named key f) :
    (ofFields (changeField T f :: fs)).find? name =
      if key = name then ((changeField T f).map (·.2)).or ((ofFields fs).find? name)
      else (ofFields fs).find? name := by
  unfold find? ofFields changeField
  cases f with
  | none => simp
  | some e =>
    have he : e.1 = key := h e rfl
    by_cases hkey : key = name <;> simp [he, hkey]

theorem find?_field (b : β) : (ofFields (changeField T (field key b) :: fs)).find? name =
    if key = name then some (T (encode b)) else (ofFields fs).find? name :=
  find?_named (named_field b)

theorem find?_fieldIfSome (o : Option β) :
    (ofFields (changeField T (fieldIfSome key o) :: fs)).find? name =
      if key = name then
        ((changeField T (fieldIfSome key o)).map (·.2)).or ((ofFields fs).find? name)
      else (ofFields fs).find? name :=
  find?_named (named_fieldIfSome o)

theorem find?_fieldIfAny (bs : List β) :
    (ofFields (changeField T (fieldIfAny key bs) :: fs)).find? name =
      if key = name then
        ((changeField T (fieldIfAny key bs)).map (·.2)).or ((ofFields fs).find? name)
      else (ofFields fs).find? name :=
  find?_named (named_fieldIfAny bs)

theorem find?_fieldIfEntries (t : Table β) :
    (ofFields (changeField T (fieldIfEntries key t) :: fs)).find? name =
      if key = name then
        ((changeField T (fieldIfEntries key t)).map (·.2)).or ((ofFields fs).find? name)
      else (ofFields fs).find? name :=
  find?_named (named_fieldIfEntries t)

attribute [simp] find?_nil find?_field find?_fieldIfSome find?_fieldIfAny find?_fieldIfEntries

end

/-! ## Reading a field

Each way of reading a field depends only on the node that is found for it. -/

section

variable {β : Type} [Decode β] {r : Record} {name : String}

/-- Read the node of a field that must be there. -/
def readRequired : Option Node → Option β
  | some n => decode? n
  | none => none

/-- Read the node of a field, or take a default. -/
def readDefaulted (default : β) : Option Node → Option β
  | some n => decode? n
  | none => some default

/-- Read the node of a field that may be missing, if the fields do not stand in a list. -/
def readOptional (positional : Bool) : Option Node → Option (Option β)
  | some n => decode? n
  | none => if positional then none else some none

theorem required?_eq : r.required? name = (readRequired (r.find? name) : Option β) := by
  unfold required?
  cases r.find? name <;> rfl

theorem defaulted?_eq {default : β} :
    r.defaulted? name default = readDefaulted default (r.find? name) := by
  unfold defaulted?
  cases r.find? name <;> rfl

theorem optional?_eq :
    r.optional? name = (readOptional r.positional (r.find? name) : Option (Option β)) := by
  unfold optional?
  cases r.find? name <;> rfl

variable [Encode β] [LawfulCodec β] {T : Node → Node} {key : String}

@[simp] theorem readRequired_encode (hT : Rearranges T) (b : β) :
    readRequired (some (T (encode b))) = some b :=
  decode?_encode hT b

@[simp] theorem readDefaulted_encode (hT : Rearranges T) (b default : β) :
    readDefaulted default (some (T (encode b))) = some b :=
  decode?_encode hT b

@[simp] theorem readOptional_encode (hT : Rearranges T) [NonNull β] (o : Option β)
    (positional : Bool) : readOptional positional (some (T (encode o))) = some o :=
  decode?_encode hT o

@[simp] theorem readDefaulted_fieldIfSome (hT : Rearranges T) [NonNull β] (o : Option β) :
    readDefaulted none ((changeField T (fieldIfSome key o)).map (·.2)) = some o := by
  cases o with
  | none => rfl
  | some b => exact decode?_encode hT (some b)

@[simp] theorem readDefaulted_fieldIfAny (hT : Rearranges T) (bs : List β) :
    readDefaulted [] ((changeField T (fieldIfAny key bs)).map (·.2)) = some bs := by
  cases bs with
  | nil => rfl
  | cons b bs => exact decode?_encode hT (b :: bs)

@[simp] theorem readDefaulted_fieldIfEntries (hT : Rearranges T) (t : Table β) :
    readDefaulted .empty ((changeField T (fieldIfEntries key t)).map (·.2)) = some t := by
  unfold fieldIfEntries
  split
  · rename_i hempty
    have heq : t = .empty := Table.ext (List.isEmpty_iff.1 hempty)
    rw [heq]
    rfl
  · exact decode?_encode hT t

end

end Record

end CommandDesk
