import CommandDesk.Proofs.Progress
import Mathlib.Tactic.Ring

/-!
# Crossing milestones

Recording progress makes every pending milestone reached that the new percentage
is not below, and hands out the hack of the lowest of them that has an enabled
one. Where the progress stood before does not matter, nor what became of the
other milestones. A single pass over the milestones finds both (`update_eq_pass`).

Whatever is done to the progress, its milestones stay planned. Until it starts
over, a milestone that is no longer pending never is again (`Milestone.Follows`),
and the milestones of all hacks that were handed out are no longer pending
(`Spent`). So no hack is handed out twice before the progress starts over
(`nodup_handedOut`), in whatever grades the percentages are computed.
-/

namespace CommandDesk

namespace Milestone

/-- What may become of a milestone before the progress starts over. -/
structure Follows (m n : Milestone) : Prop where
  percentage : n.percentage = m.percentage
  hackId : n.hackId = m.hackId
  pending : n.status = .pending → m.status = .pending

variable {m n : Milestone}

theorem Keeps.follows (h : Keeps m n) : Follows m n := ⟨h.percentage, h.hackId, h.pending⟩

theorem follows_inject (m : Milestone) : Follows m m.inject := ⟨rfl, rfl, nofun⟩

theorem follows_skip (m : Milestone) : Follows m m.skip := ⟨rfl, rfl, nofun⟩

theorem pairwise_percentages : percentages.Pairwise (· < ·) := by decide

end Milestone

namespace Progress

/-- What can be done to progress. -/
inductive Op where
  | setTotal (total : UInt64)
  | reset
  | update (current : UInt64)
  | increment (amount : UInt64)
  | markInjected (percentage : UInt32)
  | skip (percentage : UInt32)

/-- Whether the progress starts over. -/
def Op.restarts : Op → Bool
  | setTotal _ | reset => true
  | update _ | increment _ | markInjected _ | skip _ => false

section

variable (α : Type) [Grade α]

/-- The progress after an operation. More progress is recorded as the sum. -/
def Op.apply (p : Progress) : Op → Progress
  | setTotal total => p.setTotal total
  | reset => p.reset
  | update current => p.update α current
  | increment amount => p.update α (p.advanced amount)
  | markInjected percentage => (p.markInjected percentage).1
  | skip percentage => (p.skip percentage).1

/-- The hack that an operation hands out. -/
def Op.handed? (p : Progress) : Op → Option Hack
  | update current => p.due? α current
  | increment amount => p.due? α (p.advanced amount)
  | setTotal _ | reset | markInjected _ | skip _ => none

/-- The progress after operations. -/
def run (p : Progress) (ops : List Op) : Progress := ops.foldl (fun p op => op.apply α p) p

/-- The hacks that operations hand out, one after the other. -/
def handedOut (p : Progress) : List Op → List Hack
  | [] => []
  | op :: ops => (op.handed? α p).toList ++ handedOut (op.apply α p) ops

/-- One pass over milestones: those that are due become reached, and the id of the first enabled
hack among them is kept. -/
def pass (p : Progress) (first : Option String) : List Milestone → List Milestone × Option String
  | [] => ([], first)
  | m :: ms =>
    if p.isDue α m then
      let r := pass p (first.or (m.hackId.filter p.hacks.isEnabled)) ms
      (m.reach :: r.1, r.2)
    else
      let r := pass p first ms
      (m :: r.1, r.2)

end

variable {α : Type} [Grade α] {p q : Progress} {m : Milestone} {h : Hack} {current : UInt64}
variable {given : List String} {op : Op} {ops : List Op}

/-! ## One pass -/

/-- The pass leaves the milestones that are not due, and finds the first id. -/
theorem pass_eq (p : Progress) (first : Option String) (ms : List Milestone) :
    p.pass α first ms = (ms.map fun m => if p.isDue α m then m.reach else m,
      first.or (ms.findSome? fun m =>
        if p.isDue α m then m.hackId.filter p.hacks.isEnabled else none)) := by
  induction ms generalizing first with
  | nil => simp [pass]
  | cons m ms ih =>
    unfold pass
    rw [List.map_cons, List.findSome?_cons]
    by_cases hdue : p.isDue α m = true
    · simp only [if_pos hdue, ih]
      cases m.hackId.filter p.hacks.isEnabled with
      | none => simp
      | some id => simp
    · simp only [if_neg hdue, ih]

/-- Looking for the first entry and following it up is following up every entry, if there is always
something to find. -/
theorem findSome?_bind {β γ δ : Type} {f : β → Option γ} {g : γ → Option δ} {l : List β}
    (hfound : ∀ x ∈ l, ∀ c ∈ f x, (g c).isSome = true) :
    (l.findSome? f).bind g = l.findSome? fun x => (f x).bind g := by
  induction l with
  | nil => rfl
  | cons x l ih =>
    obtain ⟨hx, hl⟩ := List.forall_mem_cons.1 hfound
    rw [List.findSome?_cons, List.findSome?_cons]
    cases hf : f x with
    | none => exact ih hl
    | some c =>
      obtain ⟨d, hd⟩ := Option.isSome_iff_exists.1 (hx c hf)
      simp only [Option.bind_some, hd]

/-- **Recording progress is one pass**: it gives the milestones, and the id of the hack that is
handed out. -/
theorem update_eq_pass (p : Progress) (current : UInt64) :
    let r := { p with current }.pass α none p.milestones
    (p.update α current).milestones = r.1 ∧ p.due? α current = r.2.bind p.hacks.get? := by
  intro r
  have hr : r = _ := pass_eq { p with current } none p.milestones
  rw [hr]
  refine ⟨rfl, ?_⟩
  rw [Option.none_or, findSome?_bind]
  · unfold due?
    dsimp only
    congr 1
    funext m
    split
    · rfl
    · rfl
  · intro m hm id hid
    split at hid
    · have henabled := (Option.filter_eq_some_iff.1 hid).2
      obtain ⟨h, hget, -⟩ := HackSet.isEnabled_eq_true.1 henabled
      exact Option.isSome_iff_exists.2 ⟨h, hget⟩
    · cases hid

/-! ## The lowest milestone -/

/-- In an ascending list the first entry that has something is the lowest that does. -/
theorem findSome?_eq_some_iff_lowest {β γ : Type} {f : β → Option γ} {key : β → UInt32} {l : List β}
    {c : γ} (hl : l.Pairwise fun x y => key x < key y) :
    l.findSome? f = some c ↔
      ∃ x ∈ l, f x = some c ∧ ∀ y ∈ l, (f y).isSome = true → key x ≤ key y := by
  constructor
  · intro hfind
    obtain ⟨before, x, after, rfl, hx, hbefore⟩ := List.findSome?_eq_some_iff.1 hfind
    refine ⟨x, by simp, hx, fun y hy hsome => ?_⟩
    rcases List.mem_append.1 hy with hy | hy
    · rw [hbefore y hy] at hsome
      cases hsome
    · rcases List.mem_cons.1 hy with rfl | hy
      · exact UInt32.le_refl _
      · have hafter := (List.pairwise_append.1 hl).2.1
        exact UInt32.le_of_lt ((List.pairwise_cons.1 hafter).1 y hy)
  · rintro ⟨x, hx, hc, hlowest⟩
    obtain ⟨before, after, rfl⟩ := List.append_of_mem hx
    refine List.findSome?_eq_some_iff.2 ⟨before, x, after, rfl, hc, fun y hy => ?_⟩
    -- an entry before it is below it, so it has nothing
    have hbelow : key y < key x := (List.pairwise_append.1 hl).2.2 y hy x List.mem_cons_self
    have hnone : ¬ (f y).isSome = true := fun hsome =>
      UInt32.not_lt.2 (hlowest y (List.mem_append_left _ hy) hsome) hbelow
    simpa using hnone

/-- Planned milestones stand in ascending order. -/
theorem Planned.ascending (hp : p.Planned) :
    p.milestones.Pairwise fun m n => m.percentage < n.percentage := by
  have hall := Milestone.pairwise_percentages
  rw [← hp.percentages, List.pairwise_map] at hall
  exact hall

/-- **What is handed out** is the hack of the lowest milestone that is due and has an enabled one. -/
theorem due?_eq_some_iff (hp : p.Planned) :
    p.due? α current = some h ↔
      ∃ m ∈ p.milestones, { p with current }.isDue α m = true ∧ p.hackOf? m = some h ∧
        ∀ n ∈ p.milestones, { p with current }.isDue α n = true → (p.hackOf? n).isSome = true →
          m.percentage ≤ n.percentage := by
  have hsome : ∀ n : Milestone,
      (if { p with current }.isDue α n then p.hackOf? n else none).isSome = true ↔
        { p with current }.isDue α n = true ∧ (p.hackOf? n).isSome = true := by
    intro n
    by_cases hn : { p with current }.isDue α n = true
    · rw [if_pos hn, and_iff_right hn]
    · rw [if_neg hn]
      exact iff_of_false Bool.false_ne_true fun h => hn h.1
  have hdue : p.due? α current = p.milestones.findSome? fun m =>
      if { p with current }.isDue α m then p.hackOf? m else none := rfl
  rw [hdue, findSome?_eq_some_iff_lowest hp.ascending]
  simp only [Option.ite_none_right_eq_some, hsome, and_assoc, and_imp]

/-! ## Whatever is done -/

/-- Progress that has gone on without starting over. -/
structure Continues (p q : Progress) : Prop where
  hacks : q.hacks = p.hacks
  milestones : ∃ f : Milestone → Milestone,
    q.milestones = p.milestones.map f ∧ ∀ m : Milestone, m.Follows (f m)

theorem Planned.continues (hp : p.Planned) (h : Continues p q) : q.Planned := by
  obtain ⟨f, hf, hfollows⟩ := h.milestones
  exact hp.of_map h.hacks hf fun m => ⟨(hfollows m).percentage, (hfollows m).hackId⟩

theorem continues_update (p : Progress) (current : UInt64) : Continues p (p.update α current) :=
  ⟨rfl, _, milestones_update p current, fun m => (keeps_advance p current none m).follows⟩

theorem continues_changeAt (hp : p.Planned) (percentage : UInt32) {f : Milestone → Milestone}
    (hf : ∀ m : Milestone, m.Follows (f m)) :
    Continues p { p with milestones := Milestone.changeAt percentage f p.milestones } := by
  refine ⟨rfl, _, Milestone.changeAt_eq_map percentage f hp.nodup_percentages, fun m => ?_⟩
  split
  · exact hf m
  · exact (Milestone.Keeps.refl m).follows

/-- **Every operation that does not start over** goes on with the progress. -/
theorem continues_apply (hp : p.Planned) (hop : op.restarts = false) :
    Continues p (op.apply α p) := by
  cases op with
  | setTotal total | reset => cases hop
  | update current | increment amount => exact continues_update p _
  | markInjected percentage => exact continues_changeAt hp percentage Milestone.follows_inject
  | skip percentage => exact continues_changeAt hp percentage Milestone.follows_skip

/-- **Milestones stay planned**, whatever is done. -/
theorem planned_apply (hp : p.Planned) (op : Op) :
    (op.apply α p).Planned ∧ (op.apply α p).hacks = p.hacks := by
  cases hop : op.restarts with
  | true =>
    cases op with
    | setTotal total | reset => exact ⟨planned_of_initial hp.nodup_ids rfl, rfl⟩
    | update current | increment amount | markInjected percentage | skip percentage => cases hop
  | false =>
    have hcontinues := continues_apply (α := α) hp hop
    exact ⟨hp.continues hcontinues, hcontinues.hacks⟩

theorem planned_run (hp : p.Planned) (ops : List Op) :
    (p.run α ops).Planned ∧ (p.run α ops).hacks = p.hacks := by
  induction ops generalizing p with
  | nil => exact ⟨hp, rfl⟩
  | cons op ops ih =>
    obtain ⟨hplanned, hhacks⟩ := planned_apply (α := α) hp op
    obtain ⟨hrun, hsame⟩ := ih hplanned
    exact ⟨hrun, hsame.trans hhacks⟩

/-! ## No hack twice -/

/-- The milestones of the hacks that were handed out are no longer pending. -/
def Spent (p : Progress) (given : List String) : Prop :=
  ∀ m ∈ p.milestones, ∀ id ∈ given, m.hackId = some id → m.status ≠ .pending

theorem spent_nil (p : Progress) : p.Spent [] := fun _ _ _ hid => absurd hid List.not_mem_nil

/-- What is spent stays so until the progress starts over. -/
theorem Spent.continues (hs : p.Spent given) (h : Continues p q) : q.Spent given := by
  obtain ⟨f, hf, hfollows⟩ := h.milestones
  intro n hn id hid hown
  rw [hf] at hn
  obtain ⟨m, hm, rfl⟩ := List.mem_map.1 hn
  rw [(hfollows m).hackId] at hown
  exact fun hpending => hs m hm id hid hown ((hfollows m).pending hpending)

/-- A hack that was handed out is not handed out. -/
theorem Spent.not_mem_of_due? (hs : p.Spent given) (hdue : p.due? α current = some h) :
    h.id ∉ given := by
  obtain ⟨m, hm, hreached, hid, -⟩ := exists_isDue_of_due? hdue
  exact fun hmem => hs m hm h.id hmem hid (isDue_iff.1 hreached).1

/-- **A hack that is handed out is spent**: only one milestone has it, and that becomes reached. -/
theorem Spent.update (hp : p.Planned) (hs : p.Spent given) (hdue : p.due? α current = some h) :
    (p.update α current).Spent (h.id :: given) := by
  obtain ⟨own, hown, hreached, hid, hget, -⟩ := exists_isDue_of_due? hdue
  have hkept := hs.continues (continues_update (α := α) p current)
  intro n hn id hmem hnid
  rcases List.mem_cons.1 hmem with rfl | hmem
  · rw [milestones_update] at hn
    obtain ⟨m, hm, rfl⟩ := List.mem_map.1 hn
    rw [(keeps_advance p current none m).hackId] at hnid
    have hsame : m.percentage = own.percentage :=
      (hp.percentage_eq hm hnid hget).trans (hp.percentage_eq hown hid hget).symm
    obtain rfl := hp.eq_of_percentage hm hown hsame
    exact fun hpending => (pending_advance_iff.1 hpending).2 hreached
  · exact hkept n hn id hmem hnid

/-- What one operation hands out is new, and then spent. -/
theorem Spent.apply (hp : p.Planned) (hs : p.Spent given) (hop : op.restarts = false) :
    ∀ h ∈ op.handed? α p, h.id ∉ given ∧ (op.apply α p).Spent (h.id :: given) := by
  intro h hh
  cases op with
  | setTotal total | reset | markInjected percentage | skip percentage => cases hh
  | update current | increment amount => exact ⟨hs.not_mem_of_due? hh, hs.update hp hh⟩

/-- **No hack is handed out twice** before the progress starts over. -/
theorem nodup_handedOut (hp : p.Planned) (hs : p.Spent given)
    (hops : ∀ op ∈ ops, op.restarts = false) :
    ((p.handedOut α ops).map (·.id)).Nodup ∧ ∀ h ∈ p.handedOut α ops, h.id ∉ given := by
  induction ops generalizing p given with
  | nil => exact ⟨List.nodup_nil, fun h hh => absurd hh List.not_mem_nil⟩
  | cons op ops ih =>
    obtain ⟨hop, hops⟩ := List.forall_mem_cons.1 hops
    have hplanned := (planned_apply (α := α) hp op).1
    unfold handedOut
    cases hhanded : op.handed? α p with
    | none => exact ih hplanned (hs.continues (continues_apply hp hop)) hops
    | some h =>
      obtain ⟨hnew, hspent⟩ := hs.apply hp hop h hhanded
      obtain ⟨hnodup, hlater⟩ := ih hplanned hspent hops
      refine ⟨List.nodup_cons.2 ⟨fun hmem => ?_, hnodup⟩, fun g hg => ?_⟩
      · obtain ⟨g, hg, hsame⟩ := List.mem_map.1 hmem
        exact hlater g hg (by rw [hsame]; exact List.mem_cons_self)
      · rcases List.mem_cons.1 hg with rfl | hg
        · exact hnew
        · exact fun hmem => hlater g hg (List.mem_cons_of_mem _ hmem)

/-! ## Exactly -/

/-- A count in percent of a total, zero if the total is. -/
def share (total current : UInt64) : Rat :=
  if total = 0 then 0 else 100 * (current.toNat : Rat) / (total.toNat : Rat)

/-- A pending milestone that a percentage has come to. -/
structure Crossed (p : Progress) (percentage : Rat) (m : Milestone) : Prop where
  mem : m ∈ p.milestones
  pending : m.status = .pending
  le : (m.percentage.toNat : Rat) ≤ percentage

/-- The milestone has an enabled hack. -/
structure Offers (p : Progress) (m : Milestone) (h : Hack) : Prop where
  hackId : m.hackId = some h.id
  mem : h ∈ p.hacks.hacks
  enabled : h.enabled = true

theorem percentage_exact (p : Progress) : p.percentage Rat = share p.total p.current := by
  unfold percentage share
  split
  · norm_num
  · change (p.current.toNat : Rat) / (p.total.toNat : Rat) * (100.0 : Rat) = _
    norm_num
    ring

/-- **Read exactly**, a milestone is due when it is pending and the share has come to it. -/
theorem isDue_exact : { p with current }.isDue Rat m = true ↔
    m.status = .pending ∧ (m.percentage.toNat : Rat) ≤ share p.total current := by
  rw [isDue_iff, not_lt, percentage_exact]
  rfl

theorem crossed_iff :
    p.Crossed (share p.total current) m ↔
      m ∈ p.milestones ∧ { p with current }.isDue Rat m = true := by
  rw [isDue_exact]
  constructor
  · intro h
    exact ⟨h.mem, h.pending, h.le⟩
  · rintro ⟨hmem, hpending, hle⟩
    exact ⟨hmem, hpending, hle⟩

theorem offers_iff (hp : p.Planned) : p.Offers m h ↔ p.hackOf? m = some h := by
  rw [hackOf?_eq_some]
  constructor
  · intro hoffers
    exact ⟨hoffers.hackId, HackSet.get?_of_mem hp.nodup_ids hoffers.mem, hoffers.enabled⟩
  · rintro ⟨hid, hget, henabled⟩
    exact ⟨hid, HackSet.mem_of_get? hget, henabled⟩

/-- Recording progress makes the milestones reached that are crossed. -/
theorem milestones_update_exact (p : Progress) (current : UInt64) :
    (p.update Rat current).milestones = p.milestones.map fun m =>
      if m.status = .pending ∧ (m.percentage.toNat : Rat) ≤ share p.total current then m.reach
      else m := by
  refine List.map_congr_left fun m _ => ?_
  by_cases hdue : { p with current }.isDue Rat m = true
  · rw [if_pos hdue, if_pos (isDue_exact.1 hdue)]
  · rw [if_neg hdue, if_neg fun h => hdue (isDue_exact.2 h)]

/-- The hack of the lowest milestone that was crossed and has an enabled one is handed out. -/
theorem due?_exact (hp : p.Planned) :
    p.due? Rat current = some h ↔
      ∃ m, p.Crossed (share p.total current) m ∧ p.Offers m h ∧
        ∀ n g, p.Crossed (share p.total current) n → p.Offers n g →
          m.percentage ≤ n.percentage := by
  rw [due?_eq_some_iff hp]
  constructor
  · rintro ⟨m, hm, hdue, hhack, hlowest⟩
    refine ⟨m, crossed_iff.2 ⟨hm, hdue⟩, (offers_iff hp).2 hhack, fun n g hn hg => ?_⟩
    obtain ⟨hmem, hndue⟩ := crossed_iff.1 hn
    exact hlowest n hmem hndue (Option.isSome_iff_exists.2 ⟨g, (offers_iff hp).1 hg⟩)
  · rintro ⟨m, hm, hhack, hlowest⟩
    obtain ⟨hmem, hdue⟩ := crossed_iff.1 hm
    refine ⟨m, hmem, hdue, (offers_iff hp).1 hhack, fun n hn hndue hsome => ?_⟩
    obtain ⟨g, hg⟩ := Option.isSome_iff_exists.1 hsome
    exact hlowest n g (crossed_iff.2 ⟨hn, hndue⟩) ((offers_iff hp).2 hg)

/-- Nothing is handed out where no milestone that was crossed has an enabled hack. -/
theorem due?_eq_none_exact (hp : p.Planned) :
    p.due? Rat current = none ↔
      ∀ m h, p.Crossed (share p.total current) m → ¬ p.Offers m h := by
  unfold due?
  rw [List.findSome?_eq_none_iff]
  constructor
  · intro hnone m h hm hoffers
    obtain ⟨hmem, hdue⟩ := crossed_iff.1 hm
    have hhack := hnone m hmem
    rw [if_pos hdue] at hhack
    change p.hackOf? m = none at hhack
    rw [(offers_iff hp).1 hoffers] at hhack
    cases hhack
  · intro hnone m hm
    split
    · rename_i hdue
      refine Option.eq_none_iff_forall_ne_some.2 fun h hh => ?_
      exact hnone m h (crossed_iff.2 ⟨hm, hdue⟩) ((offers_iff hp).2 hh)
    · rfl

/-- A sum that does not fit is the largest word. -/
theorem toNat_advanced (p : Progress) (amount : UInt64) :
    (p.advanced amount).toNat = min (p.current.toNat + amount.toNat) (2 ^ 64 - 1) := by
  have hfits : min (p.current.toNat + amount.toNat) (UInt64.size - 1) < 2 ^ 64 := by
    simp only [UInt64.size]
    omega
  exact UInt64.toNat_ofNat_of_lt' hfits

/-- **Recording progress crosses exactly the right milestones.** Take any hacks with distinct ids
and any operations on their progress. A new count makes exactly those milestones reached that are
pending and at most at the new percentage, and leaves the others as they are. It hands out the hack
of the lowest milestone that was crossed and has an enabled one, and none if there is no such
milestone. More progress is recorded as the sum, up to the largest word. From here on no hack is
handed out twice before the progress starts over. -/
theorem update_crosses (hacks : HackSet) (hids : (hacks.hacks.map (·.id)).Nodup) (ops : List Op) :
    let p := (ofHacks hacks).run Rat ops
    (∀ current : UInt64,
      let q := p.update Rat current
      let percentage : Rat := share p.total current
      q.percentage Rat = percentage ∧ q.current = current ∧ q.total = p.total ∧ q.hacks = hacks ∧
        q.milestones = p.milestones.map (fun m =>
          if m.status = .pending ∧ (m.percentage.toNat : Rat) ≤ percentage
          then { m with status := .reached, reachedStamp := true } else m) ∧
        (∀ h, p.due? Rat current = some h ↔
          ∃ m, p.Crossed percentage m ∧ p.Offers m h ∧
            ∀ n g, p.Crossed percentage n → p.Offers n g → m.percentage ≤ n.percentage) ∧
        (p.due? Rat current = none ↔ ∀ m h, p.Crossed percentage m → ¬ p.Offers m h)) ∧
      (∀ amount : UInt64,
        (Op.increment amount).apply Rat p = p.update Rat (p.advanced amount) ∧
          (Op.increment amount).handed? Rat p = p.due? Rat (p.advanced amount) ∧
          (p.advanced amount).toNat = min (p.current.toNat + amount.toNat) (2 ^ 64 - 1)) ∧
      ∀ later : List Op, (∀ op ∈ later, op.restarts = false) →
        ((p.handedOut Rat later).map (·.id)).Nodup := by
  intro p
  obtain ⟨hplanned, hhacks⟩ : p.Planned ∧ p.hacks = hacks :=
    planned_run (planned_of_initial hids rfl) ops
  refine ⟨fun current => ?_, fun amount => ⟨rfl, rfl, toNat_advanced p amount⟩, fun later hlater => ?_⟩
  · exact ⟨percentage_exact _, rfl, rfl, hhacks, milestones_update_exact p current,
      fun h => due?_exact hplanned, due?_eq_none_exact hplanned⟩
  · exact (nodup_handedOut hplanned (spent_nil p) hlater).1

/-- A jump to the end, after the third milestone was skipped: the fourth has no enabled hack, so that
of the last one is handed out, and not again when the progress goes back. -/
theorem update_crosses_standard :
    let p := (ofHacks .standard).run Rat [.update 45, .skip 60]
    (HackSet.standard.hacks.map (·.id)).Nodup ∧
      (∃ m h, p.Crossed 100 m ∧ p.Offers m h ∧ h.id = "devils_advocate") ∧
      ((p.handedOut Rat [.increment 55, .update 10, .update 100]).map (·.id)).Nodup := by
  intro p
  have hids : (HackSet.standard.hacks.map (·.id)).Nodup := by decide +kernel
  have hid : (p.due? Rat 100).map (·.id) = some "devils_advocate" := by decide +kernel
  have hshare : share p.total 100 = 100 := by decide +kernel
  obtain ⟨h, hdue, hh⟩ := Option.map_eq_some_iff.1 hid
  obtain ⟨hupdate, -, honce⟩ := update_crosses .standard hids [.update 45, .skip 60]
  obtain ⟨-, -, -, -, -, hlowest, -⟩ := hupdate 100
  obtain ⟨m, hm, hoffers, -⟩ := (hlowest h).1 hdue
  change p.Crossed (share p.total 100) m at hm
  rw [hshare] at hm
  exact ⟨hids, ⟨m, h, hm, hoffers, hh⟩, honce _ (by decide)⟩

end Progress

end CommandDesk
