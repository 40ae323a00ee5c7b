import CommandDesk.Catalog
import CommandDesk.Proofs.Table
import Mathlib.Data.List.Induction
import Mathlib.Data.List.Nodup

/-!
# Catalogs that are built by registering and unregistering

What a catalog holds can be read off its history. For each name only the
registrations matter that no later edit takes back (`standing`): the first of
them gives the name its place among the others, the last one its entry. One edit
keeps this (`Follows.edit`), so it holds after any history
(`run_reflects_history`), and so does what looking a name up relies on: names are
valid, and each is there once.
-/

namespace CommandDesk

namespace Catalog

/-- A change of a catalog. -/
inductive Edit where
  | register (s : Spec)
  | unregister (name : String)

namespace Edit

/-- The entry that an edit registers under a name. A name that is not valid is not registered. -/
def spec? (name : String) : Edit → Option Spec
  | register s => if s.name = name ∧ Name.isValid s.name = true then some s else none
  | unregister _ => none

/-- Whether an edit takes a name away. -/
def removes (name : String) : Edit → Bool
  | register _ => false
  | unregister n => n = name

end Edit

/-- Change a catalog. A registration that is refused leaves it as it is. -/
def edit (c : Catalog) : Edit → Catalog
  | .register s => match c.register s with
    | .ok c => c
    | .error _ => c
  | .unregister name => (c.unregister name).1

/-- Change a catalog again and again. -/
def run (c : Catalog) (es : List Edit) : Catalog := es.foldl edit c

/-- The registrations of a name that no later edit takes back, with their places in the history,
which are counted from `i` on. -/
def standing (name : String) (i : Nat) : List Edit → List (Nat × Spec)
  | [] => []
  | e :: es =>
    (if es.any (·.removes name) then [] else (e.spec? name).toList.map (i, ·)) ++
      standing name (i + 1) es

/-- The place of the registration since which a name has been there. -/
def since? (name : String) (es : List Edit) : Option Nat := (standing name 0 es).head?.map (·.1)

/-- The entry that was registered last under a name and not taken away since. -/
def latest? (name : String) (es : List Edit) : Option Spec :=
  (standing name 0 es).getLast?.map (·.2)

variable {c : Catalog} {s : Spec} {specs : List Spec} {es : List Edit} {name : String}

/-! ## One edit -/

theorem register_of_isValid (c : Catalog) (h : Name.isValid s.name = true) :
    c.register s = .ok ⟨putSpec s c.specs⟩ := by
  unfold register Name.validate
  rw [if_pos h]
  rfl

theorem register_of_not_isValid (c : Catalog) (h : ¬ Name.isValid s.name = true) :
    c.register s = .error (.invalidCommandName s.name) := by
  unfold register Name.validate
  rw [if_neg h]
  rfl

theorem edit_register_of_isValid (c : Catalog) (h : Name.isValid s.name = true) :
    c.edit (.register s) = ⟨putSpec s c.specs⟩ := by
  unfold edit
  dsimp only
  rw [register_of_isValid c h]

/-- A registration that fails changes nothing. -/
theorem edit_register_of_not_isValid (c : Catalog) (h : ¬ Name.isValid s.name = true) :
    c.edit (.register s) = c := by
  unfold edit
  dsimp only
  rw [register_of_not_isValid c h]

theorem mem_names_cons {t : Spec} (specs : List Spec) (h : ¬ t.name = s.name) :
    s.name ∈ (t :: specs).map (·.name) ↔ s.name ∈ specs.map (·.name) := by
  rw [List.map_cons, List.mem_cons]
  exact or_iff_right fun hst => h hst.symm

/-- A name that is there keeps its place, and a new one comes last. -/
theorem map_name_putSpec (s : Spec) (specs : List Spec) :
    (putSpec s specs).map (·.name) =
      if s.name ∈ specs.map (·.name) then specs.map (·.name)
      else specs.map (·.name) ++ [s.name] := by
  induction specs with
  | nil => simp [putSpec]
  | cons t specs ih =>
    unfold putSpec
    by_cases ht : t.name = s.name
    · simp [ht]
    · have hmem := mem_names_cons specs ht
      rw [if_neg ht, List.map_cons, ih]
      by_cases hs : s.name ∈ specs.map (·.name)
      · rw [if_pos hs, if_pos (hmem.2 hs), List.map_cons]
      · rw [if_neg hs, if_neg fun h => hs (hmem.1 h), List.map_cons, List.cons_append]

theorem find?_putSpec (s : Spec) (specs : List Spec) (name : String) :
    (putSpec s specs).find? (·.name = name) =
      if s.name = name then some s else specs.find? (·.name = name) := by
  induction specs with
  | nil => simp [putSpec]
  | cons t specs ih =>
    unfold putSpec
    by_cases ht : t.name = s.name
    · by_cases hs : s.name = name
      · simp [ht, hs]
      · simp [ht, hs]
    · rw [if_neg ht, List.find?_cons, List.find?_cons, ih]
      by_cases htn : t.name = name
      · have hs : ¬ s.name = name := fun h => ht (htn.trans h.symm)
        simp [htn, hs]
      · simp [htn]

theorem mem_putSpec {t : Spec} (h : t ∈ putSpec s specs) : t = s ∨ t ∈ specs := by
  induction specs with
  | nil => exact .inl (List.mem_singleton.1 h)
  | cons u specs ih =>
    unfold putSpec at h
    split at h
    · exact (List.mem_cons.1 h).imp_right (List.mem_cons_of_mem _)
    · rcases List.mem_cons.1 h with rfl | h
      · exact .inr List.mem_cons_self
      · exact (ih h).imp_right (List.mem_cons_of_mem _)

/-- **Putting an entry**, where every name is there once: it takes the place of the one with its
name, and without one it comes last. -/
theorem putSpec_eq (s : Spec) (h : (specs.map (·.name)).Nodup) :
    putSpec s specs =
      if s.name ∈ specs.map (·.name) then specs.map fun t => if t.name = s.name then s else t
      else specs ++ [s] := by
  induction specs with
  | nil => simp [putSpec]
  | cons t specs ih =>
    obtain ⟨hnew, hrest⟩ := List.nodup_cons.1 h
    unfold putSpec
    by_cases ht : t.name = s.name
    · -- the name does not occur again, so the rest stays as it is
      have hsame : specs.map (fun t => if t.name = s.name then s else t) = specs :=
        (List.map_congr_left fun u hu => if_neg fun hus =>
          hnew (List.mem_map.2 ⟨u, hu, hus.trans ht.symm⟩)).trans (List.map_id specs)
      simp [ht, hsame]
    · have hmem := mem_names_cons specs ht
      rw [if_neg ht, ih hrest]
      by_cases hs : s.name ∈ specs.map (·.name)
      · rw [if_pos hs, if_pos (hmem.2 hs), List.map_cons, if_neg ht]
      · rw [if_neg hs, if_neg fun h => hs (hmem.1 h), List.cons_append]

theorem get?_unregister (c : Catalog) (n name : String) :
    (c.unregister n).1.get? name = if n = name then none else c.get? name := by
  unfold get? unregister
  dsimp only
  induction c.specs with
  | nil => simp
  | cons t specs ih =>
    by_cases ht : t.name = n
    · by_cases hname : n = name
      · simp [ht, hname]
      · simpa [ht, hname] using ih
    · by_cases htn : t.name = name
      · have hne : ¬ n = name := fun h => ht (htn.trans h.symm)
        have hne' : ¬ name = n := fun h => hne h.symm
        simp [htn, hne, hne']
      · simpa [ht, htn] using ih

/-- Unregistering says whether the name was there. -/
theorem snd_unregister_iff : (c.unregister name).2 = true ↔ name ∈ c.names :=
  length_filter_ne_iff

/-- A name that is not there is unregistered without a change. -/
theorem unregister_of_not_mem (h : name ∉ c.names) : c.unregister name = (c, false) := by
  have hkept : c.specs.filter (·.name ≠ name) = c.specs := filter_ne_eq_self h
  unfold unregister
  dsimp only
  rw [hkept, bne_self_eq_false]

theorem mem_names : name ∈ c.names ↔ (c.get? name).isSome = true := by
  unfold names get?
  simp [List.find?_isSome]

/-! ## Histories -/

theorem run_append (c : Catalog) (es es' : List Edit) : c.run (es ++ es') = (c.run es).run es' :=
  List.foldl_append

theorem run_concat (c : Catalog) (es : List Edit) (e : Edit) :
    c.run (es ++ [e]) = (c.run es).edit e := by
  rw [run_append]
  rfl

/-- **One more edit** takes the registrations of its name back, or adds one. -/
theorem standing_concat (name : String) (i : Nat) (es : List Edit) (e : Edit) :
    standing name i (es ++ [e]) =
      if e.removes name then []
      else standing name i es ++ (e.spec? name).toList.map (i + es.length, ·) := by
  induction es generalizing i with
  | nil =>
    cases e with
    | register s => simp [standing, Edit.removes]
    | unregister n => simp [standing, Edit.spec?]
  | cons d es ih =>
    have hplace : i + 1 + es.length = i + (d :: es).length := by
      rw [List.length_cons]
      omega
    rw [List.cons_append, standing, ih, standing, List.any_append, hplace]
    by_cases he : e.removes name = true
    · simp [he]
    · simp [he, List.append_assoc]

theorem place_lt_of_mem_standing {i j : Nat} {t : Spec} (h : (j, t) ∈ standing name i es) :
    j < i + es.length := by
  induction es generalizing i with
  | nil => exact absurd h List.not_mem_nil
  | cons e es ih =>
    rw [List.length_cons]
    rcases List.mem_append.1 h with h | h
    · split at h
      · exact absurd h List.not_mem_nil
      · obtain ⟨t', -, hj⟩ := List.mem_map.1 h
        have hij := (Prod.mk.inj hj).1
        omega
    · have hj := ih h
      omega

theorem since?_lt {j : Nat} (h : since? name es = some j) : j < es.length := by
  obtain ⟨⟨j', t⟩, hhead, rfl⟩ := Option.map_eq_some_iff.1 h
  have hplace := place_lt_of_mem_standing (List.mem_of_head? hhead)
  omega

theorem since?_concat (name : String) (es : List Edit) (e : Edit) :
    since? name (es ++ [e]) =
      if e.removes name then none
      else (since? name es).or ((e.spec? name).map fun _ => es.length) := by
  unfold since?
  rw [standing_concat]
  split
  · rfl
  · cases standing name 0 es with
    | nil => cases e.spec? name <;> simp
    | cons x standing => simp

theorem latest?_concat (name : String) (es : List Edit) (e : Edit) :
    latest? name (es ++ [e]) =
      if e.removes name then none else (e.spec? name).or (latest? name es) := by
  unfold latest?
  rw [standing_concat]
  split
  · rfl
  · cases e.spec? name <;> simp

theorem isSome_since? : (since? name es).isSome = (latest? name es).isSome := by
  unfold since? latest?
  cases standing name 0 es with
  | nil => rfl
  | cons x standing => simp

/-! ## What every edit keeps -/

/-- The one name came to stay before the other. -/
def Precedes (es : List Edit) (m n : String) : Prop :=
  ∃ i j, since? m es = some i ∧ since? n es = some j ∧ i < j

/-- **A catalog follows its history**: names are valid, they stand in the order in which they came
to stay, and each has the entry that was registered last. -/
structure Follows (es : List Edit) (c : Catalog) : Prop where
  valid : ∀ s ∈ c.specs, Name.isValid s.name = true
  ordered : c.names.Pairwise (Precedes es)
  latest : ∀ name, c.get? name = latest? name es

namespace Follows

theorem nodup (h : Follows es c) : c.names.Nodup := by
  refine h.ordered.imp ?_
  rintro m n ⟨i, j, hi, hj, hij⟩ rfl
  rw [Option.some.inj (hi.symm.trans hj)] at hij
  exact Nat.lt_irrefl j hij

/-- A name is there exactly when a registration of it stands. -/
theorem mem_names_iff (h : Follows es c) : name ∈ c.names ↔ (since? name es).isSome = true := by
  rw [mem_names, h.latest, isSome_since?]

/-- A catalog that stays as it is still follows when nothing about any name is decided. -/
theorem of_silent (h : Follows es c) {e : Edit} (hspec : ∀ name, e.spec? name = none)
    (hremoves : ∀ name, e.removes name = false) : Follows (es ++ [e]) c := by
  refine ⟨h.valid, h.ordered.imp ?_, fun name => ?_⟩
  · intro m n hmn
    simpa [Precedes, since?_concat, hspec, hremoves] using hmn
  · rw [h.latest, latest?_concat, hspec, hremoves]
    rfl

theorem register (h : Follows es c) (s : Spec) :
    Follows (es ++ [.register s]) (c.edit (.register s)) := by
  by_cases hs : Name.isValid s.name = true
  · have hspec : ∀ name, (Edit.register s).spec? name = if s.name = name then some s else none := by
      intro name
      simp [Edit.spec?, hs]
    -- a name that is there has come before
    have hsince : ∀ m i, since? m es = some i → since? m (es ++ [.register s]) = some i := by
      intro m i hi
      rw [since?_concat, hi]
      rfl
    rw [edit_register_of_isValid c hs]
    refine ⟨fun t ht => ?_, ?_, fun name => ?_⟩
    · rcases mem_putSpec ht with rfl | ht
      · exact hs
      · exact h.valid t ht
    · have hold : c.names.Pairwise (Precedes (es ++ [Edit.register s])) := by
        refine h.ordered.imp ?_
        rintro m n ⟨i, j, hi, hj, hij⟩
        exact ⟨i, j, hsince m i hi, hsince n j hj, hij⟩
      unfold names
      dsimp only
      rw [map_name_putSpec]
      split
      · exact hold
      · -- a new name comes now, after all others
        rename_i hnew
        have hnone : since? s.name es = none := by
          rw [← Option.not_isSome_iff_eq_none, ← h.mem_names_iff]
          exact hnew
        refine List.pairwise_append.2 ⟨hold, List.pairwise_singleton _ _, fun m hm n hn => ?_⟩
        obtain rfl := List.mem_singleton.1 hn
        obtain ⟨i, hi⟩ := Option.isSome_iff_exists.1 (h.mem_names_iff.1 hm)
        refine ⟨i, es.length, hsince m i hi, ?_, since?_lt hi⟩
        rw [since?_concat, hnone, hspec, if_pos rfl]
        rfl
    · unfold get?
      dsimp only
      rw [find?_putSpec, latest?_concat, hspec, ← h.latest]
      split
      · rfl
      · rfl
  · rw [edit_register_of_not_isValid c hs]
    exact h.of_silent (fun name => if_neg fun hname => hs hname.2) fun _ => rfl

theorem unregister (h : Follows es c) (n : String) :
    Follows (es ++ [.unregister n]) (c.edit (.unregister n)) := by
  have hsince : ∀ m, m ≠ n → since? m (es ++ [.unregister n]) = since? m es := by
    intro m hm
    simp [since?_concat, Edit.removes, Edit.spec?, hm.symm]
  have hnames : (c.unregister n).1.names = c.names.filter (· ≠ n) := by
    unfold names Catalog.unregister
    rw [List.filter_map]
    rfl
  refine ⟨fun s hs => h.valid s (List.mem_filter.1 hs).1, ?_, fun name => ?_⟩
  · -- the edit decides about its own name only, and that one is gone
    have hkept := h.ordered.filter (· ≠ n)
    have hall : ∀ m ∈ c.names.filter (· ≠ n), m ≠ n := fun m hm => by
      simpa using (List.mem_filter.1 hm).2
    show (c.unregister n).1.names.Pairwise _
    rw [hnames]
    refine hkept.imp_of_mem fun {m k} hm hk hmk => ?_
    unfold Precedes
    rw [hsince m (hall m hm), hsince k (hall k hk)]
    exact hmk
  · show (c.unregister n).1.get? name = _
    rw [get?_unregister, latest?_concat, h.latest]
    by_cases hname : n = name
    · simp [Edit.removes, hname]
    · simp [Edit.removes, Edit.spec?, hname]

/-- **Every edit keeps it.** -/
theorem edit (h : Follows es c) (e : Edit) : Follows (es ++ [e]) (c.edit e) := by
  cases e with
  | register s => exact h.register s
  | unregister n => exact h.unregister n

end Follows

/-- **A catalog follows its history**, from the empty one on. -/
theorem follows_run (es : List Edit) : Follows es (empty.run es) := by
  -- the latest edit comes last in the history, so the induction takes it off the end
  induction es using List.reverseRecOn with
  | nil =>
    exact ⟨fun _ hs => absurd hs List.not_mem_nil, List.Pairwise.nil, fun _ => rfl⟩
  | append_singleton es e ih =>
    rw [run_concat]
    exact ih.edit e

/-- A registration of a valid name that is there already changes the entry in its place, and one
of another valid name comes last. -/
theorem Follows.specs_register (h : Follows es c) (hs : Name.isValid s.name = true) :
    (c.edit (.register s)).specs =
      if s.name ∈ c.names then c.specs.map fun t => if t.name = s.name then s else t
      else c.specs ++ [s] := by
  rw [edit_register_of_isValid c hs]
  exact putSpec_eq s h.nodup

/-- Where every name is there once, looking up the name of an entry finds it. -/
theorem get?_of_mem (hnodup : c.names.Nodup) (hs : s ∈ c.specs) : c.get? s.name = some s := by
  obtain ⟨t, ht⟩ := Option.isSome_iff_exists.1 (mem_names.1 (List.mem_map_of_mem hs))
  rw [ht]
  unfold get? at ht
  have htname : t.name = s.name := by simpa using List.find?_some ht
  rw [List.inj_on_of_nodup_map hnodup (List.mem_of_find?_eq_some ht) hs htname]

/-- **The parameters that a command lacks** are those of the entry with its name. -/
theorem missingParams_of_mem (hnodup : c.names.Nodup) (hs : s ∈ c.specs) {command : Command}
    (hname : s.name = command.name) :
    c.missingParams command = s.requiredParams.filter fun p => p ∉ command.params.keys := by
  unfold missingParams
  rw [← hname, get?_of_mem hnodup hs]
  refine List.filter_congr fun p _ => ?_
  have hp : command.params.contains p = true ↔ p ∈ command.params.keys :=
    command.params.contains_iff_mem_keys
  by_cases hkey : p ∈ command.params.keys
  · simp [hkey, hp.2 hkey]
  · simp [hkey, mt hp.1 hkey]

/-- A command that is not registered lacks nothing. -/
theorem missingParams_of_not_mem {command : Command} (h : command.name ∉ c.names) :
    c.missingParams command = [] := by
  unfold missingParams
  rw [Option.not_isSome_iff_eq_none.1 fun hsome => h (mem_names.2 hsome)]

/-- The standard catalog comes from registering its entries one after the other. -/
theorem run_standard : empty.run (standard.specs.map .register) = standard := by
  decide +kernel

/-- A catalog to begin with follows from registering its entries. -/
theorem run_specs {start : Catalog} (hstart : start ∈ [empty, standard]) :
    empty.run (start.specs.map .register) = start := by
  rcases List.mem_cons.1 hstart with rfl | hstart
  · rfl
  · rw [List.mem_singleton.1 hstart]
    exact run_standard

/-- **A catalog reflects its history.** Whatever is registered and unregistered, from the empty
catalog or the standard one on: names are valid and each is there once. A registration is refused
only for its name, and then changes nothing; of a name that is there it changes the entry in its
place, and a new name comes last. Names stand in the order of the registrations since which they
have been there, each with the entry that was registered last, and what a command lacks are the
required parameters of the entry with its name, in their order, that it does not carry. -/
theorem run_reflects_history (start : Catalog) (hstart : start ∈ [empty, standard])
    (es : List Edit) :
    let c := start.run es
    let history := start.specs.map .register ++ es
    (∀ s ∈ c.specs, Name.isValid s.name = true) ∧
      c.names.Nodup ∧
      (∀ s, ¬ Name.isValid s.name = true →
        c.register s = .error (.invalidCommandName s.name) ∧ c.edit (.register s) = c) ∧
      (∀ s, Name.isValid s.name = true →
        c.register s = .ok (c.edit (.register s)) ∧
          (c.edit (.register s)).specs =
            if s.name ∈ c.names then c.specs.map fun t => if t.name = s.name then s else t
            else c.specs ++ [s]) ∧
      c.names.Pairwise (Precedes history) ∧
      (∀ name, c.get? name = latest? name history) ∧
      (∀ command, ∀ s ∈ c.specs, s.name = command.name →
        c.missingParams command = s.requiredParams.filter fun p => p ∉ command.params.keys) ∧
      ∀ command, command.name ∉ c.names → c.missingParams command = [] := by
  intro c history
  have hc : c = empty.run history := by rw [run_append, run_specs hstart]
  have hfollows : Follows history c := hc ▸ follows_run history
  refine ⟨hfollows.valid, hfollows.nodup, fun s hs => ?_, fun s hs => ?_, hfollows.ordered,
    hfollows.latest, fun command s hs hname => missingParams_of_mem hfollows.nodup hs hname,
    fun command h => missingParams_of_not_mem h⟩
  · exact ⟨register_of_not_isValid c hs, edit_register_of_not_isValid c hs⟩
  · refine ⟨?_, hfollows.specs_register hs⟩
    rw [register_of_isValid c hs, edit_register_of_isValid c hs]

/-- Edits of the standard catalog: a new command, one that is refused, the new one once more, and
a command that goes and comes back. -/
def reportEdits : List Edit :=
  [.register (plain "export-report" "v1" .low), .register (plain "Bad_Name" "x" .low),
    .unregister "analyze-data", .register ⟨"export-report", "v2", .low, ["format", "to"], []⟩,
    .register (plain "analyze-data" "again" .high)]

/-- The new command keeps its place before the one that came back, and has its second entry. -/
theorem run_reportEdits :
    standard ∈ [empty, standard] ∧
      let c := standard.run reportEdits
      let history := standard.specs.map .register ++ reportEdits
      c.names.Nodup ∧ c.names.Pairwise (Precedes history) ∧
        c.names.drop 6 = ["search-content", "export-report", "analyze-data"] ∧
        c.get? "export-report" = latest? "export-report" history ∧
        latest? "export-report" history = some ⟨"export-report", "v2", .low, ["format", "to"], []⟩ ∧
        c.missingParams (.ofName "export-report") = ["format", "to"] := by
  obtain ⟨-, hnodup, -, -, hordered, hlatest, -, -⟩ :=
    run_reflects_history standard (by simp) reportEdits
  exact ⟨by simp, hnodup, hordered, by decide +kernel, hlatest _, by decide +kernel,
    by decide +kernel⟩

end Catalog

end CommandDesk
