import CommandDesk.Hack.Injection
import Mathlib.Data.List.Nodup

/-!
# Hacks by id

What is found under an id in a set of hacks, also after hacks were switched, and
that an injected hack always shows in the prompt: the prompt only grows
(`foldl_inject_eq_iff`).
-/

namespace CommandDesk

namespace HackSet

variable {s t : HackSet} {id : String} {h : Hack}

theorem mem_of_get? (hget : s.get? id = some h) : h ∈ s.hacks := List.mem_of_find?_eq_some hget

/-- What is found under an id has that id. -/
theorem id_of_get? (hget : s.get? id = some h) : h.id = id := by
  unfold get? at hget
  simpa using List.find?_some hget

theorem isSome_get? : (s.get? id).isSome = true ↔ ∃ h ∈ s.hacks, h.id = id := by
  simp [get?]

theorem isEnabled_eq_true : s.isEnabled id = true ↔ ∃ h, s.get? id = some h ∧ h.enabled = true := by
  simp [isEnabled, Option.any_eq_true]

/-- Where no id occurs twice, every hack is found under its id. -/
theorem get?_of_mem (hids : (s.hacks.map (·.id)).Nodup) (hmem : h ∈ s.hacks) :
    s.get? h.id = some h := by
  cases hget : s.get? h.id with
  | none =>
    have hsome : (s.get? h.id).isSome = true := isSome_get?.2 ⟨h, hmem, rfl⟩
    rw [hget] at hsome
    cases hsome
  | some found =>
    rw [List.inj_on_of_nodup_map hids (mem_of_get? hget) hmem (id_of_get? hget)]

/-- The hack that is found for a milestone belongs to it and is enabled. -/
theorem atMilestone?_eq_some {milestone : UInt32} (hat : s.atMilestone? milestone = some h) :
    h ∈ s.hacks ∧ h.milestone = milestone ∧ h.enabled = true := by
  have hfound := List.find?_some hat
  rw [Bool.and_eq_true, decide_eq_true_eq] at hfound
  exact ⟨List.mem_of_find?_eq_some hat, hfound⟩

/-- **Of the hacks with the ids of a list** the enabled ones are taken, in order. -/
theorem map_id_filterMap (s : HackSet) (ids : List String) :
    (ids.filterMap fun id => (s.get? id).filter (·.enabled)).map (·.id) =
      ids.filter s.isEnabled := by
  induction ids with
  | nil => rfl
  | cons id ids ih =>
    rw [List.filterMap_cons, List.filter_cons, ← ih]
    cases hget : s.get? id with
    | none => simp [isEnabled, hget]
    | some h =>
      have hid : h.id = id := id_of_get? hget
      cases henabled : h.enabled <;> simp [isEnabled, hget, henabled, hid, Option.filter]

/-! ## Switching -/

theorem map_id_switchFirst (id : String) (enabled : Bool) (hs : List Hack) :
    (switchFirst id enabled hs).map (·.id) = hs.map (·.id) := by
  induction hs with
  | nil => rfl
  | cons h hs ih =>
    unfold switchFirst
    split
    · rfl
    · rw [List.map_cons, List.map_cons, ih]

/-- Where no id occurs twice, switching the first hack of an id is switching all of that id. -/
theorem switchFirst_eq_map {enabled : Bool} {hs : List Hack} (hids : (hs.map (·.id)).Nodup) :
    switchFirst id enabled hs = hs.map fun h => if h.id = id then { h with enabled } else h := by
  induction hs with
  | nil => rfl
  | cons h hs ih =>
    obtain ⟨hnew, hrest⟩ := List.nodup_cons.1 hids
    rw [switchFirst, List.map_cons]
    split
    · rename_i hid
      -- the others have other ids
      have hothers : hs.map (fun h => if h.id = id then { h with enabled } else h) = hs := by
        refine (List.map_congr_left fun other hother => ?_).trans (List.map_id hs)
        have hne : other.id ≠ id := fun heq =>
          hnew (List.mem_map.2 ⟨other, hother, heq.trans hid.symm⟩)
        exact if_neg hne
      rw [hothers]
    · rw [ih hrest]

/-- Sets with the same ids have hacks under the same ids. -/
theorem isSome_get?_congr (hids : s.hacks.map (·.id) = t.hacks.map (·.id)) :
    (s.get? id).isSome = (t.get? id).isSome := by
  rw [Bool.eq_iff_iff, isSome_get?, isSome_get?]
  have hmem : id ∈ s.hacks.map (·.id) ↔ id ∈ t.hacks.map (·.id) := by rw [hids]
  simpa only [List.mem_map] using hmem

/-- A preset leaves the ids as they are. -/
theorem map_id_applyPreset (s : HackSet) (p : Preset) :
    (s.applyPreset p).hacks.map (·.id) = s.hacks.map (·.id) := by
  unfold applyPreset
  rw [List.map_map]
  rfl

end HackSet

namespace Injection

/-- **An injected hack makes the prompt longer**, whatever its text. -/
theorem length_lt_inject (prompt : String) (h : Hack) (o : InjectOptions) :
    prompt.length < (inject prompt h o).injected.length := by
  have hbreak : ("\n\n" : String).length = 2 := rfl
  unfold inject
  dsimp only
  split <;> simp only [String.length_append, hbreak] <;> omega

/-- A prompt stays as it was exactly when no hack is injected. -/
theorem foldl_inject_eq_iff (hacks : List Hack) (prompt : String) (o : InjectOptions) :
    hacks.foldl (fun p h => (inject p h o).injected) prompt = prompt ↔ hacks = [] := by
  -- for every start: the prompt never gets shorter
  have hgrows : ∀ (hs : List Hack) (p : String),
      p.length ≤ (hs.foldl (fun p h => (inject p h o).injected) p).length := by
    intro hs
    induction hs with
    | nil => exact fun p => Nat.le_refl _
    | cons h hs ih => exact fun p => Nat.le_trans (Nat.le_of_lt (length_lt_inject p h o)) (ih _)
  cases hacks with
  | nil => exact iff_of_true rfl rfl
  | cons h hs =>
    refine iff_of_false (fun heq => ?_) (List.cons_ne_nil h hs)
    have hlonger := length_lt_inject prompt h o
    have hrest := hgrows hs (inject prompt h o).injected
    rw [← List.foldl_cons (f := fun p h => (inject p h o).injected), heq] at hrest
    omega

end Injection

end CommandDesk
