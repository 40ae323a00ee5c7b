import CommandDesk.Progress
import CommandDesk.Proofs.Hack
import Mathlib.Algebra.Order.Field.Rat
import Mathlib.Tactic.NormNum

/-!
# Progress and its milestones

A report of progress makes every milestone reached that is due, and one of them
injected if its hack was. With distinct ids of hacks, the milestone that is noted
as injected is the one whose hack was handed out (`milestones_markInjected`), so a
report touches pending milestones only (`Milestone.Keeps`). Noting something at a
percentage without a milestone changes nothing (`changeMilestone_of_not_mem`).
-/

namespace CommandDesk

namespace Milestone

/-- **What may become of a milestone**: it keeps its percentage and its hack, and once it is no
longer pending it is left alone. -/
structure Keeps (m n : Milestone) : Prop where
  percentage : n.percentage = m.percentage
  hackId : n.hackId = m.hackId
  settled : m.status ≠ .pending → n = m

variable {m n : Milestone}

theorem Keeps.refl (m : Milestone) : Keeps m m := ⟨rfl, rfl, fun _ => rfl⟩

theorem Keeps.trans {o : Milestone} (h : Keeps m n) (h' : Keeps n o) : Keeps m o := by
  refine ⟨h'.percentage.trans h.percentage, h'.hackId.trans h.hackId, fun hm => ?_⟩
  obtain rfl := h.settled hm
  exact h'.settled hm

theorem Keeps.pending (h : Keeps m n) (hn : n.status = .pending) : m.status = .pending := by
  by_contra hm
  rw [h.settled hm] at hn
  exact hm hn

/-- Where no percentage occurs twice, all milestones at a percentage are changed. -/
theorem changeAt_eq_map (percentage : UInt32) (f : Milestone → Milestone) {ms : List Milestone}
    (hms : (ms.map (·.percentage)).Nodup) :
    changeAt percentage f ms = ms.map fun m => if m.percentage = percentage then f m else m := by
  induction ms with
  | nil => rfl
  | cons m ms ih =>
    obtain ⟨hm, hrest⟩ := List.nodup_cons.1 hms
    unfold changeAt
    rw [List.map_cons]
    split
    · rename_i heq
      -- none of the others is at the percentage
      have hothers : ms.map (fun n => if n.percentage = percentage then f n else n) = ms.map id :=
        List.map_congr_left fun n hn =>
          if_neg fun hp => hm (List.mem_map.2 ⟨n, hn, hp.trans heq.symm⟩)
      rw [hothers, List.map_id]
    · rw [ih hrest]

theorem changeAt_of_not_mem {percentage : UInt32} (f : Milestone → Milestone)
    {ms : List Milestone} (h : percentage ∉ ms.map (·.percentage)) :
    changeAt percentage f ms = ms := by
  induction ms with
  | nil => rfl
  | cons m ms ih =>
    rw [List.map_cons, List.mem_cons, not_or] at h
    unfold changeAt
    rw [if_neg (Ne.symm h.1), ih h.2]

theorem nodup_percentages : percentages.Nodup := by simp [percentages]

theorem map_percentage_initial (hacks : HackSet) :
    (initial hacks).map (·.percentage) = percentages := by
  unfold initial
  rw [List.map_map]
  exact List.map_id _

theorem pos_of_mem_percentages {percentage : UInt32} (h : percentage ∈ percentages) :
    0 < percentage := by
  have hall : ∀ p ∈ percentages, 0 < p := by simp [percentages]
  exact hall percentage h

end Milestone

namespace Progress

section

variable {α : Type} [Grade α] {p : Progress} {current : UInt64} {m : Milestone} {h : Hack}

/-- A milestone is due when it is pending and the percentage is not below its own. -/
theorem isDue_iff : p.isDue α m = true ↔
    m.status = .pending ∧ ¬ p.percentage α < Grade.ofNat m.percentage.toNat := by
  simp [isDue]

theorem hackOf?_eq_some : p.hackOf? m = some h ↔
    m.hackId = some h.id ∧ p.hacks.get? h.id = some h ∧ h.enabled = true := by
  unfold hackOf?
  rw [Option.bind_eq_some_iff]
  constructor
  · rintro ⟨id, hfilter, hget⟩
    obtain ⟨hid, henabled⟩ := Option.filter_eq_some_iff.1 hfilter
    obtain ⟨found, hfound, hon⟩ := HackSet.isEnabled_eq_true.1 henabled
    obtain rfl : h = found := Option.some.inj (hget.symm.trans hfound)
    obtain rfl := HackSet.id_of_get? hget
    exact ⟨hid, hget, hon⟩
  · rintro ⟨hid, hget, hon⟩
    have henabled : p.hacks.isEnabled h.id = true := HackSet.isEnabled_eq_true.2 ⟨h, hget, hon⟩
    exact ⟨h.id, Option.filter_eq_some_iff.2 ⟨hid, henabled⟩, hget⟩

/-- **What is handed out** is the enabled hack of a milestone that is due. -/
theorem exists_isDue_of_due? (hdue : p.due? α current = some h) :
    ∃ m ∈ p.milestones, { p with current }.isDue α m = true ∧ m.hackId = some h.id ∧
      p.hacks.get? h.id = some h ∧ h.enabled = true := by
  obtain ⟨m, hm, hhack⟩ := List.exists_of_findSome?_eq_some hdue
  by_cases hreached : { p with current }.isDue α m = true
  · rw [if_pos hreached, hackOf?_eq_some] at hhack
    exact ⟨m, hm, hreached, hhack⟩
  · rw [if_neg hreached] at hhack
    cases hhack

end

/-! ## Single milestones -/

/-- Changing a milestone says whether there is one at the percentage. -/
theorem snd_changeMilestone_iff {p : Progress} {percentage : UInt32} {f : Milestone → Milestone} :
    (p.changeMilestone percentage f).2 = true ↔ percentage ∈ p.milestones.map (·.percentage) := by
  simp [changeMilestone]

/-- Where there is none, nothing changes. -/
theorem changeMilestone_of_not_mem {p : Progress} {percentage : UInt32} (f : Milestone → Milestone)
    (h : percentage ∉ p.milestones.map (·.percentage)) :
    p.changeMilestone percentage f = (p, false) := by
  have hfound := Bool.eq_false_iff.2 fun hfound => h (snd_changeMilestone_iff (f := f).1 hfound)
  refine Prod.ext ?_ hfound
  unfold changeMilestone
  rw [Milestone.changeAt_of_not_mem f h]

/-! ## Planned milestones -/

/-- The milestones are those of the hacks, which have distinct ids. -/
structure Planned (p : Progress) : Prop where
  nodup_ids : (p.hacks.hacks.map (·.id)).Nodup
  percentages : p.milestones.map (·.percentage) = Milestone.percentages
  hackId : ∀ m ∈ p.milestones, m.hackId = (p.hacks.atMilestone? m.percentage).map (·.id)

/-- The milestones are those of the hacks, which have distinct ids, and progress is counted towards
one hundred. -/
structure Scheduled (p : Progress) : Prop extends p.Planned where
  total : p.total = 100

variable {p q : Progress} {m n : Milestone} {h : Hack}

theorem planned_of_initial (hids : (p.hacks.hacks.map (·.id)).Nodup)
    (hinitial : p.milestones = Milestone.initial p.hacks) : p.Planned := by
  refine ⟨hids, ?_, fun m hm => ?_⟩
  · rw [hinitial]
    exact Milestone.map_percentage_initial p.hacks
  · rw [hinitial] at hm
    obtain ⟨percentage, -, rfl⟩ := List.mem_map.1 hm
    rfl

/-- Milestones stay planned when they keep their percentages and their hacks. -/
theorem Planned.of_map (hp : p.Planned) {f : Milestone → Milestone} (hhacks : q.hacks = p.hacks)
    (hf : q.milestones = p.milestones.map f)
    (hkeeps : ∀ m, (f m).percentage = m.percentage ∧ (f m).hackId = m.hackId) : q.Planned := by
  refine ⟨?_, ?_, fun n hn => ?_⟩
  · rw [hhacks]
    exact hp.nodup_ids
  · rw [hf, List.map_map, ← hp.percentages]
    exact List.map_congr_left fun m _ => (hkeeps m).1
  · rw [hf] at hn
    obtain ⟨m, hm, rfl⟩ := List.mem_map.1 hn
    rw [(hkeeps m).2, (hkeeps m).1, hhacks]
    exact hp.hackId m hm

theorem Planned.percentage_pos (hp : p.Planned) (hm : m ∈ p.milestones) : 0 < m.percentage := by
  have hmem : m.percentage ∈ p.milestones.map (·.percentage) := List.mem_map_of_mem hm
  rw [hp.percentages] at hmem
  exact Milestone.pos_of_mem_percentages hmem

/-- No two milestones are at one percentage. -/
theorem Planned.nodup_percentages (hp : p.Planned) : (p.milestones.map (·.percentage)).Nodup := by
  rw [hp.percentages]
  exact Milestone.nodup_percentages

theorem Planned.eq_of_percentage (hp : p.Planned) (hm : m ∈ p.milestones)
    (hn : n ∈ p.milestones) (heq : m.percentage = n.percentage) : m = n :=
  List.inj_on_of_nodup_map hp.nodup_percentages hm hn heq

/-- **The hack that is found for a milestone** belongs to that milestone: ids are distinct. -/
theorem Planned.percentage_eq (hp : p.Planned) (hm : m ∈ p.milestones)
    (hid : m.hackId = some h.id) (hget : p.hacks.get? h.id = some h) :
    m.percentage = h.milestone := by
  rw [hp.hackId m hm] at hid
  obtain ⟨own, hown, hsame⟩ := Option.map_eq_some_iff.1 hid
  obtain ⟨hmem, hmilestone, -⟩ := HackSet.atMilestone?_eq_some hown
  have hfound := HackSet.get?_of_mem hp.nodup_ids hmem
  rw [hsame, hget] at hfound
  rw [Option.some.inj hfound, hmilestone]

theorem scheduled_ofHacks {hacks : HackSet} (hids : (hacks.hacks.map (·.id)).Nodup) :
    (ofHacks hacks).Scheduled :=
  ⟨planned_of_initial (p := ofHacks hacks) hids rfl, rfl⟩

/-! ## A report -/

section

variable (α : Type) [Grade α]

/-- What a report of progress makes of a milestone, when that hack is injected with it. -/
def advance (p : Progress) (current : UInt64) (injected : Option Hack) (m : Milestone) :
    Milestone :=
  if { p with current }.isDue α m then
    if injected.any (·.milestone = m.percentage) then m.reach.inject else m.reach
  else m

variable {α} {current : UInt64}

/-- A milestone that is not due is left alone, and one that is due was pending. -/
theorem keeps_advance (p : Progress) (current : UInt64) (injected : Option Hack) (m : Milestone) :
    m.Keeps (p.advance α current injected m) := by
  unfold advance
  split
  · rename_i hdue
    have hpending := (isDue_iff.1 hdue).1
    split <;> exact ⟨rfl, rfl, fun hm => absurd hpending hm⟩
  · exact .refl m

/-- Only a milestone that is not due stays pending. -/
theorem pending_advance_iff {injected : Option Hack} :
    (p.advance α current injected m).status = .pending ↔
      m.status = .pending ∧ ¬ { p with current }.isDue α m = true := by
  unfold advance
  split
  · rename_i hdue
    split <;> exact iff_of_false nofun fun h => h.2 hdue
  · rename_i hdue
    exact (and_iff_left hdue).symm

/-- Only a milestone that is due becomes injected, and only by a hack that belongs to it. -/
theorem injected_advance {injected : Option Hack}
    (h : (p.advance α current injected m).status = .injected) :
    m.status = .injected ∨ { p with current }.isDue α m = true ∧
      ∃ h ∈ injected, h.milestone = m.percentage := by
  unfold advance at h
  split at h
  · rename_i hdue
    split at h
    · rename_i hown
      obtain ⟨own, hmem, hmilestone⟩ := (Option.any_eq_true _ _).1 hown
      exact .inr ⟨hdue, own, hmem, of_decide_eq_true hmilestone⟩
    · cases h
  · exact .inl h

theorem milestones_update (p : Progress) (current : UInt64) :
    (p.update α current).milestones = p.milestones.map (p.advance α current none) := rfl

/-- **The milestone of the hack that was handed out** is the one that is noted as injected. -/
theorem milestones_markInjected (hp : p.Planned) (hdue : p.due? α current = some h) :
    ((p.update α current).markInjected h.milestone).1.milestones =
      p.milestones.map (p.advance α current (some h)) := by
  obtain ⟨own, hown, hreached, hid, hget, -⟩ := exists_isDue_of_due? hdue
  have hkept : ((p.update α current).milestones.map (·.percentage)).Nodup := by
    rw [milestones_update, List.map_map]
    have hsame : p.milestones.map ((·.percentage) ∘ p.advance α current none) =
        p.milestones.map (·.percentage) :=
      List.map_congr_left fun m _ => (keeps_advance p current none m).percentage
    rw [hsame]
    exact hp.nodup_percentages
  change Milestone.changeAt h.milestone .inject (p.update α current).milestones = _
  rw [Milestone.changeAt_eq_map _ _ hkept, milestones_update, List.map_map]
  refine List.map_congr_left fun m hm => ?_
  simp only [Function.comp_apply, advance, Option.any_some, Option.any_none, decide_eq_true_eq]
  by_cases hm' : { p with current }.isDue α m = true
  · simp only [if_pos hm', Bool.false_eq_true, if_false, eq_comm (a := h.milestone)]
    rfl
  · -- one that is not due is at another percentage than the one that is
    have hother : m.percentage ≠ h.milestone := by
      rw [← hp.percentage_eq hown hid hget]
      intro heq
      rw [hp.eq_of_percentage hm hown heq] at hm'
      exact hm' hreached
    rw [if_neg hm', if_neg hm', if_neg hother]

end

/-! ## Many reports -/

/-- Progress that came of other progress by reports. -/
structure Advances (p q : Progress) : Prop where
  hacks : q.hacks = p.hacks
  total : q.total = p.total
  milestones : ∃ f : Milestone → Milestone,
    q.milestones = p.milestones.map f ∧ ∀ m : Milestone, m.Keeps (f m)

theorem Advances.refl (p : Progress) : Advances p p :=
  ⟨rfl, rfl, id, (List.map_id _).symm, .refl⟩

theorem Advances.trans {r : Progress} (h : Advances p q) (h' : Advances q r) : Advances p r := by
  obtain ⟨f, hf, hkeeps⟩ := h.milestones
  obtain ⟨g, hg, hkeeps'⟩ := h'.milestones
  refine ⟨h'.hacks.trans h.hacks, h'.total.trans h.total, g ∘ f, ?_, fun m => ?_⟩
  · rw [hg, hf, List.map_map]
  · exact (hkeeps m).trans (hkeeps' (f m))

/-- Each milestone has its place, before and after. -/
theorem Advances.getElem? (h : Advances p q) {i : Nat} (hm : p.milestones[i]? = some m) :
    ∃ n, q.milestones[i]? = some n ∧ m.Keeps n := by
  obtain ⟨f, hf, hkeeps⟩ := h.milestones
  refine ⟨f m, ?_, hkeeps m⟩
  rw [hf, List.getElem?_map, hm]
  rfl

theorem Advances.exists_getElem? (h : Advances p q) {i : Nat} (hn : q.milestones[i]? = some n) :
    ∃ m, p.milestones[i]? = some m ∧ m.Keeps n := by
  obtain ⟨f, hf, hkeeps⟩ := h.milestones
  rw [hf, List.getElem?_map, Option.map_eq_some_iff] at hn
  obtain ⟨m, hm, rfl⟩ := hn
  exact ⟨m, hm, hkeeps m⟩

theorem Advances.exists_of_mem (h : Advances p q) (hn : n ∈ q.milestones) :
    ∃ m ∈ p.milestones, m.Keeps n := by
  obtain ⟨i, hi⟩ := List.mem_iff_getElem?.1 hn
  obtain ⟨m, hm, hkeeps⟩ := h.exists_getElem? hi
  exact ⟨m, List.mem_of_getElem? hm, hkeeps⟩

theorem Scheduled.advances (hp : p.Scheduled) (h : Advances p q) : q.Scheduled := by
  obtain ⟨f, hf, hkeeps⟩ := h.milestones
  have hplanned : q.Planned :=
    hp.toPlanned.of_map h.hacks hf fun m => ⟨(hkeeps m).percentage, (hkeeps m).hackId⟩
  exact ⟨hplanned, h.total.trans hp.total⟩

/-- **Injected milestones only get more.** -/
theorem Advances.injectedCount_le (h : Advances p q) : p.injectedCount ≤ q.injectedCount := by
  obtain ⟨f, hf, hkeeps⟩ := h.milestones
  unfold injectedCount count
  rw [hf, ← List.countP_eq_length_filter, ← List.countP_eq_length_filter, List.countP_map]
  refine List.countP_mono_left fun m _ hm => ?_
  have hinjected : m.status = .injected := of_decide_eq_true hm
  have hsame : f m = m := (hkeeps m).settled (by rw [hinjected]; decide)
  simpa [hsame] using hinjected

/-- **Pending milestones only get fewer.** -/
theorem Advances.remainingCount_le (h : Advances p q) : q.remainingCount ≤ p.remainingCount := by
  obtain ⟨f, hf, hkeeps⟩ := h.milestones
  unfold remainingCount count
  rw [hf, ← List.countP_eq_length_filter, ← List.countP_eq_length_filter, List.countP_map]
  refine List.countP_mono_left fun m _ hm => ?_
  have hpending : (f m).status = .pending := of_decide_eq_true hm
  exact decide_eq_true ((hkeeps m).pending hpending)

/-! ## Exact percentages -/

/-- Towards one hundred, the percentage is the count. -/
theorem percentage_rat (hp : p.total = 100) : p.percentage Rat = (p.current.toNat : Rat) := by
  have htotal : (100 : UInt64) ≠ 0 := by decide
  have hcount : (100 : UInt64).toNat = 100 := rfl
  unfold percentage
  rw [hp, if_neg htotal, hcount]
  change (p.current.toNat : Rat) / ((100 : Nat) : Rat) * (100.0 : Rat) = _
  norm_num

/-- **Read exactly**, a pending milestone is due when the reported percentage is not below its
own. -/
theorem isDue_rat (hp : p.total = 100) {current : UInt32} :
    { p with current := UInt64.ofNat current.toNat }.isDue Rat m = true ↔
      m.status = .pending ∧ m.percentage ≤ current := by
  have hfits : (UInt64.ofNat current.toNat).toNat = current.toNat :=
    UInt64.toNat_ofNat_of_lt' (Nat.lt_trans current.toNat_lt (by decide))
  rw [isDue_iff, percentage_rat (by exact hp), hfits, UInt32.le_iff_toNat_le]
  refine and_congr_right fun _ => ?_
  change ¬ (current.toNat : Rat) < (m.percentage.toNat : Rat) ↔ _
  rw [not_lt]
  exact Nat.cast_le

end Progress

end CommandDesk
