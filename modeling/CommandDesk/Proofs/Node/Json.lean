import CommandDesk.Node.JsonPrinter
import CommandDesk.Proofs.Node.Record

/-!
# JSON trees

JSON knows fewer kinds of nodes than documents do: what it has no form for is
written as null or as a text. `tree` is the document that is left, with the same
text (`compact_tree`). Nothing is lost exactly of a document that is such a tree
already (`tree_eq_self_iff`). Whether what is written for a value is one, the
lemmas at the end reduce to its parts: in the end its numbers must be finite.
-/

namespace CommandDesk

namespace Json

mutual

/-- The JSON tree that is written for a document. -/
def tree : Node → Node
  | .num x => if x.isFinite then .num x else .null
  | .bare s => .text s
  | .list ns => .list (treeItems ns)
  | .dict es => .dict (treeEntries es)
  | .tagged _ _ | .other => .null
  | n => n

/-- The trees of items. -/
def treeItems : List Node → List Node
  | [] => []
  | n :: ns => tree n :: treeItems ns

/-- The trees of entries, under their keys. -/
def treeEntries : List (String × Node) → List (String × Node)
  | [] => []
  | (k, n) :: es => (k, tree n) :: treeEntries es

end

mutual

/-- **A document and its tree have the same text.** -/
theorem compact_tree : ∀ n, compact (tree n) = compact n
  | .null | .flag _ | .int _ | .text _ | .bare _ | .tagged _ _ | .other => by
    simp [tree, compact, scalar]
  | .num x => by
    by_cases hx : x.isFinite <;> simp [tree, compact, scalar, hx]
  | .list ns => by simp [tree, compact, compactItems_tree ns]
  | .dict es => by simp [tree, compact, compactEntries_tree es]

theorem compactItems_tree : ∀ ns, compactItems (treeItems ns) = compactItems ns
  | [] => rfl
  | [n] => by simp [treeItems, compactItems, compact_tree n]
  | n :: m :: ns => by
    have h := compactItems_tree (m :: ns)
    rw [treeItems] at h
    simp [treeItems, compactItems, compact_tree n, h]

theorem compactEntries_tree : ∀ es, compactEntries (treeEntries es) = compactEntries es
  | [] => rfl
  | [(k, n)] => by simp [treeEntries, compactEntries, compact_tree n]
  | (k, n) :: (l, m) :: es => by
    have h := compactEntries_tree ((l, m) :: es)
    rw [treeEntries] at h
    simp [treeEntries, compactEntries, compact_tree n, h]

end

/-! ## Documents that are trees -/

/-- A document of the kinds that JSON knows. -/
inductive IsTree : Node → Prop where
  | null : IsTree .null
  | flag (b : Bool) : IsTree (.flag b)
  | int (i : Int) : IsTree (.int i)
  | num {x : Float} (h : x.isFinite = true) : IsTree (.num x)
  | text (s : String) : IsTree (.text s)
  | list {ns : List Node} (h : ∀ n ∈ ns, IsTree n) : IsTree (.list ns)
  | dict {es : List (String × Node)} (h : ∀ e ∈ es, IsTree e.2) : IsTree (.dict es)

mutual

/-- What is left of a document is a tree. -/
theorem isTree_tree : ∀ n, IsTree (tree n)
  | .null | .tagged _ _ | .other => .null
  | .flag b => .flag b
  | .int i => .int i
  | .text s | .bare s => .text s
  | .num x => by
    rw [tree]
    split
    · rename_i hx
      exact .num hx
    · exact .null
  | .list ns => .list (isTree_treeItems ns)
  | .dict es => .dict (isTree_treeEntries es)

theorem isTree_treeItems : ∀ ns, ∀ n ∈ treeItems ns, IsTree n
  | [] => List.forall_mem_nil _
  | n :: ns => List.forall_mem_cons.2 ⟨isTree_tree n, isTree_treeItems ns⟩

theorem isTree_treeEntries : ∀ es, ∀ e ∈ treeEntries es, IsTree e.2
  | [] => List.forall_mem_nil _
  | (_, n) :: es => List.forall_mem_cons.2 ⟨isTree_tree n, isTree_treeEntries es⟩

end

theorem treeItems_eq_map (ns : List Node) : treeItems ns = ns.map tree := by
  induction ns with
  | nil => rw [treeItems, List.map_nil]
  | cons n ns ih => rw [treeItems, ih, List.map_cons]

theorem treeEntries_eq_map (es : List (String × Node)) :
    treeEntries es = es.map fun e => (e.1, tree e.2) := by
  induction es with
  | nil => rw [treeEntries, List.map_nil]
  | cons e es ih => rw [treeEntries, ih, List.map_cons]

/-- **Nothing is lost of a tree**, and of nothing else is nothing lost. -/
theorem tree_eq_self_iff {n : Node} : tree n = n ↔ IsTree n := by
  refine ⟨fun h => h ▸ isTree_tree n, fun h => ?_⟩
  induction h with
  | null | flag | int | text => simp [tree]
  | num hx => simp [tree, hx]
  | list _ ih =>
    rw [tree, treeItems_eq_map, List.map_congr_left ih, List.map_id']
  | dict _ ih =>
    have hentries := List.map_congr_left fun e he => congrArg (Prod.mk e.1) (ih e he)
    rw [tree, treeEntries_eq_map, hentries, List.map_id']

/-! ## What is written for values -/

variable {β : Type} [Encode β] {name : String}

@[simp] theorem isTree_bool (b : Bool) : IsTree (encode b) := .flag b

@[simp] theorem isTree_string (s : String) : IsTree (encode s) := .text s

@[simp] theorem isTree_uint64 (n : UInt64) : IsTree (encode n) := .int _

@[simp] theorem isTree_uint32 (n : UInt32) : IsTree (encode n) := .int _

@[simp] theorem isTree_word {γ : Type} [Worded γ] (c : γ) : IsTree (encode c) := .text _

@[simp] theorem isTree_float (x : Float) : IsTree (encode x) ↔ x.isFinite = true :=
  ⟨fun | .num h => h, .num⟩

@[simp] theorem isTree_option (o : Option β) :
    IsTree (encode o) ↔ ∀ b ∈ o, IsTree (encode b) := by
  cases o with
  | none => exact iff_of_true .null nofun
  | some b => simp [encode]

@[simp] theorem isTree_items (bs : List β) :
    IsTree (encode bs) ↔ ∀ b ∈ bs, IsTree (encode b) :=
  ⟨fun | .list h => List.forall_mem_map.1 h, fun h => .list (List.forall_mem_map.2 h)⟩

@[simp] theorem isTree_table (t : Table β) :
    IsTree (encode t) ↔ ∀ e ∈ t.entries, IsTree (encode e.2) := by
  constructor
  · intro h e he
    cases h with
    | dict h => exact h (e.1, encode e.2) (List.mem_map_of_mem he)
  · intro h
    refine .dict fun e he => ?_
    obtain ⟨d, hd, rfl⟩ := List.mem_map.1 he
    exact h d hd

/-- What is written for a field is a tree. -/
def IsTreeField (f : Option (String × Node)) : Prop := ∀ e ∈ f, IsTree e.2

theorem isTree_ofFields {fs : List (Option (String × Node))} :
    IsTree (.ofFields fs) ↔ ∀ f ∈ fs, IsTreeField f := by
  unfold Node.ofFields
  constructor
  · intro h f hf e he
    cases h with
    | dict h => exact h e (List.mem_filterMap.2 ⟨f, hf, he⟩)
  · intro h
    refine .dict fun e he => ?_
    obtain ⟨f, hf, he⟩ := List.mem_filterMap.1 he
    exact h f hf e he

@[simp] theorem isTreeField_field (b : β) : IsTreeField (field name b) ↔ IsTree (encode b) := by
  simp [IsTreeField, field]

@[simp] theorem isTreeField_fieldIfSome (o : Option β) :
    IsTreeField (fieldIfSome name o) ↔ ∀ b ∈ o, IsTree (encode b) := by
  cases o <;> simp [IsTreeField, fieldIfSome]

@[simp] theorem isTreeField_fieldIfAny (bs : List β) :
    IsTreeField (fieldIfAny name bs) ↔ ∀ b ∈ bs, IsTree (encode b) := by
  cases bs <;> simp [IsTreeField, fieldIfAny]

@[simp] theorem isTreeField_fieldIfEntries (t : Table β) :
    IsTreeField (fieldIfEntries name t) ↔ ∀ e ∈ t.entries, IsTree (encode e.2) := by
  unfold fieldIfEntries
  split
  · rename_i hempty
    have hnone : t.entries = [] := List.isEmpty_iff.1 hempty
    simp [IsTreeField, hnone]
  · simp [IsTreeField]

/-! ## Finite numbers -/

/-- None of the numbers is infinite or no number at all. -/
def AllFinite (xs : List Float) : Prop := ∀ x ∈ xs, x.isFinite = true

variable {γ : Type} {x : Float} {xs ys : List Float}

@[simp] theorem allFinite_nil : AllFinite [] := nofun

@[simp] theorem allFinite_cons : AllFinite (x :: xs) ↔ x.isFinite = true ∧ AllFinite xs :=
  List.forall_mem_cons

@[simp] theorem allFinite_append : AllFinite (xs ++ ys) ↔ AllFinite xs ∧ AllFinite ys :=
  List.forall_mem_append

@[simp] theorem allFinite_map {f : γ → Float} {cs : List γ} :
    AllFinite (cs.map f) ↔ ∀ c ∈ cs, (f c).isFinite = true :=
  List.forall_mem_map

@[simp] theorem allFinite_flatMap {f : γ → List Float} {cs : List γ} :
    AllFinite (cs.flatMap f) ↔ ∀ c ∈ cs, AllFinite (f c) := by
  unfold AllFinite
  simp only [List.mem_flatMap]
  exact ⟨fun h c hc x hx => h x ⟨c, hc, hx⟩, fun h x ⟨c, hc, hx⟩ => h c hc x hx⟩

@[simp] theorem allFinite_toList {o : Option Float} :
    AllFinite o.toList ↔ ∀ x ∈ o, x.isFinite = true := by
  simp [AllFinite]

end Json

end CommandDesk
