import CommandDesk.Files
import CommandDesk.Proofs.Config.Stages

/-!
# What writing leaves alone

Folders are made where nothing stands, and only on the way to the path they are
made for (`Files.Reaches`). So writing a file changes what stands under its own
path and adds folders above it, and everything else that stood before still
stands (`Files.get?_write`).
-/

namespace CommandDesk

/-- The path and the folders above it are its prefixes. -/
theorem Path.above_of_mem_upward {p q : Path} (h : q ∈ p.upward) : q <+: p := by
  obtain ⟨n, -, rfl⟩ := List.mem_map.1 h
  exact List.take_prefix _ _

namespace Files

variable {fs fs' fs'' : Files} {p q : Path} {i : Item}

/-! ## Setting -/

theorem find?_setItem_self (p : Path) (i : Item) (items : List (Path × Item)) :
    (setItem p i items).find? (·.1 = p) = some (p, i) := by
  induction items with
  | nil => simp [setItem]
  | cons e es ih =>
    unfold setItem
    split
    · simp
    · rename_i hne
      rw [List.find?_cons_of_neg (by simpa using hne), ih]

theorem find?_setItem_of_ne (h : q ≠ p) (i : Item) (items : List (Path × Item)) :
    (setItem p i items).find? (·.1 = q) = items.find? (·.1 = q) := by
  induction items with
  | nil => simp [setItem, h.symm]
  | cons e es ih =>
    unfold setItem
    split
    · rename_i he
      simp [he, h.symm]
    · rw [List.find?_cons, List.find?_cons, ih]

/-- The root is a folder. -/
@[simp] theorem get?_root (fs : Files) : fs.get? [] = some .folder := rfl

theorem get?_set_self (fs : Files) (i : Item) (hp : p ≠ []) : (fs.set p i).get? p = some i := by
  unfold get? set
  rw [if_neg (by simpa using hp), find?_setItem_self]
  rfl

theorem get?_set_of_ne (fs : Files) (i : Item) (h : q ≠ p) : (fs.set p i).get? q = fs.get? q := by
  unfold get? set
  rw [find?_setItem_of_ne h]

/-! ## Folders -/

/-- The second tree is the first one with folders added on the way to the path. -/
def Reaches (before after : Files) (p : Path) : Prop :=
  ∀ q, after.get? q = before.get? q ∨
    (q <+: p ∧ before.get? q = none ∧ after.get? q = some .folder)

theorem Reaches.refl (fs : Files) (p : Path) : fs.Reaches fs p := fun _ => .inl rfl

theorem Reaches.trans (h : fs.Reaches fs' p) (h' : fs'.Reaches fs'' p) : fs.Reaches fs'' p := by
  intro q
  rcases h q with hq | ⟨habove, hnone, hfolder⟩
  · rw [← hq]
    exact h' q
  · -- what was made stays
    rcases h' q with hq | ⟨-, hother, -⟩
    · exact .inr ⟨habove, hnone, hq.trans hfolder⟩
    · rw [hfolder] at hother
      cases hother

/-- Whatever stood still stands. -/
theorem Reaches.get? (h : fs.Reaches fs' p) (hq : fs.get? q ≠ none) : fs'.get? q = fs.get? q :=
  (h q).resolve_right fun hnew => hq hnew.2.1

/-- Away from the path nothing is made. -/
theorem Reaches.get?_of_not_above (h : fs.Reaches fs' p) (hq : ¬ q <+: p) :
    fs'.get? q = fs.get? q :=
  (h q).resolve_right fun hnew => hq hnew.1

theorem reaches_of_makeFolder (h : fs.makeFolder q = .ok fs') (hq : q <+: p) :
    fs.Reaches fs' p := by
  unfold makeFolder at h
  split at h
  · obtain rfl : fs = fs' := Except.ok.inj h
    exact .refl fs p
  · cases h
  · rename_i hnone
    split at h
    · obtain rfl : fs.set q .folder = fs' := Except.ok.inj h
      intro r
      by_cases hr : r = q
      · subst hr
        have hne : r ≠ [] := by
          rintro rfl
          cases hnone
        exact .inr ⟨hq, hnone, get?_set_self fs _ hne⟩
      · exact .inl (get?_set_of_ne fs _ hr)
    · cases h

/-- **Making folders** adds them on the way to the path, and changes nothing else. -/
theorem reaches_of_makeFolders (h : fs.makeFolders p = .ok fs') : fs.Reaches fs' p := by
  unfold makeFolders at h
  have habove : ∀ q ∈ p.upward.reverse, q <+: p := fun q hq =>
    Path.above_of_mem_upward (List.mem_reverse.1 hq)
  -- one folder after another, each on the way
  generalize p.upward.reverse = folders at h habove
  induction folders generalizing fs with
  | nil =>
    obtain rfl : fs = fs' := Except.ok.inj h
    exact .refl fs p
  | cons q folders ih =>
    rw [List.foldlM_cons, bind_eq_ok] at h
    obtain ⟨next, hstep, hrest⟩ := h
    exact (reaches_of_makeFolder hstep (habove q List.mem_cons_self)).trans
      (ih hrest fun r hr => habove r (List.mem_cons_of_mem q hr))

/-! ## Files -/

/-- **What a write does**: the text stands under the path, whatever stood anywhere else still stands
there, and what is new are folders above the path. -/
theorem get?_write {t : String} (h : fs.write p t = .ok fs') :
    fs'.get? p = some (.file t) ∧
      ∀ q, q ≠ p → fs'.get? q = fs.get? q ∨
        (q <+: p.dropLast ∧ fs.get? q = none ∧ fs'.get? q = some .folder) := by
  unfold write at h
  obtain ⟨above, hfolders, hset⟩ := bind_eq_ok.1 h
  split at hset
  · cases hset
  · rename_i hfree
    obtain rfl : above.set p (.file t) = fs' := Except.ok.inj hset
    have hp : p ≠ [] := by
      rintro rfl
      simp [isFolder] at hfree
    refine ⟨get?_set_self above _ hp, fun q hq => ?_⟩
    rw [get?_set_of_ne above _ hq]
    exact reaches_of_makeFolders hfolders q

/-- Whatever stood away from the path still stands after a write. -/
theorem get?_write_of_ne {t : String} (h : fs.write p t = .ok fs') (hq : q ≠ p)
    (hstood : fs.get? q ≠ none) : fs'.get? q = fs.get? q :=
  ((get?_write h).2 q hq).resolve_right fun hnew => hstood hnew.2.1

/-- A file is written only where nothing stands. -/
theorem writeIfMissing_cases {t : String} {written : Bool}
    (h : fs.writeIfMissing p t = .ok (fs', written)) :
    (fs.get? p ≠ none ∧ written = false ∧ fs' = fs) ∨
      (fs.get? p = none ∧ written = true ∧ fs.write p t = .ok fs') := by
  unfold writeIfMissing at h
  split at h
  · rename_i hstands
    obtain ⟨rfl, rfl⟩ := Prod.mk.inj (Except.ok.inj h)
    exact .inl ⟨Option.ne_none_iff_isSome.2 hstands, rfl, rfl⟩
  · rename_i habsent
    cases hwrite : fs.write p t with
    | error e =>
      rw [hwrite] at h
      cases h
    | ok after =>
      rw [hwrite] at h
      obtain ⟨rfl, rfl⟩ := Prod.mk.inj (Except.ok.inj h)
      exact .inr ⟨Option.not_isSome_iff_eq_none.1 habsent, rfl, rfl⟩

end Files

end CommandDesk
