import CommandDesk.Proofs.Progress.Crossing
import Mathlib.Data.List.Forall2
import Mathlib.Logic.Relation

/-!
# The outcomes of milestones

A milestone is pending, then reached, then injected or skipped. Until the progress
starts over, none falls back to an earlier stage of this course, and one that has
an outcome keeps having one (`Milestone.Undergoes`). Which of the two it is can
change: noting an injection and skipping do not look at what was noted before, so
the last outcome that a milestone was given counts. The outcomes are final in
exactly those runs in which no milestone is given both of them
(`alwaysForward_iff_agreed`), and the count of injected milestones falls exactly
where an injected one is skipped.
-/

namespace CommandDesk

namespace MilestoneStatus

/-- One step in the course of a milestone. -/
inductive Next : MilestoneStatus → MilestoneStatus → Prop
  | reach : Next .pending .reached
  | inject : Next .reached .injected
  | skip : Next .reached .skipped

/-- The course goes forward from one status to another. Steps may be passed over. -/
def Forward : MilestoneStatus → MilestoneStatus → Prop := Relation.ReflTransGen Next

/-- How many steps of the course lie before a status. -/
def stage : MilestoneStatus → Nat
  | .pending => 0
  | .reached => 1
  | .injected | .skipped => 2

/-- The outcome that a status says, if it says one. -/
def outcome? : MilestoneStatus → Option MilestoneStatus
  | .pending | .reached => none
  | .injected => some .injected
  | .skipped => some .skipped

variable {s t : MilestoneStatus}

theorem Next.stage_eq (h : Next s t) : t.stage = s.stage + 1 := by
  cases h <;> rfl

theorem forward_of_stage_lt (hlt : s.stage < t.stage) : Forward s t := by
  cases s with
  | pending =>
    cases t with
    | pending => cases hlt
    | reached => exact .single .reach
    | injected => exact .head .reach (.single .inject)
    | skipped => exact .head .reach (.single .skip)
  | reached =>
    cases t with
    | pending | reached => exact absurd hlt (by decide)
    | injected => exact .single .inject
    | skipped => exact .single .skip
  | injected | skipped =>
    -- no stage lies behind the outcomes
    cases t <;> exact absurd hlt (by decide)

/-- **Going forward** is staying or coming to a later stage. -/
theorem forward_iff : Forward s t ↔ s = t ∨ s.stage < t.stage := by
  constructor
  · intro h
    induction h with
    | refl => exact .inl rfl
    | tail _ hnext ih =>
      have hstep := hnext.stage_eq
      rcases ih with rfl | hlt
      · exact .inr (by omega)
      · exact .inr (by omega)
  · rintro (rfl | hlt)
    · exact .refl
    · exact forward_of_stage_lt hlt

theorem stage_le_two (s : MilestoneStatus) : s.stage ≤ 2 := by
  cases s <;> decide

theorem stage_of_outcome? {o : MilestoneStatus} (h : s.outcome? = some o) :
    s.stage = 2 ∧ s = o := by
  cases s <;> cases h <;> exact ⟨rfl, rfl⟩

/-- Each stage before the last is one status, and the last is told by the outcome. -/
theorem eq_of_stage_eq (heq : s.stage = t.stage)
    (hagree : ∀ o ∈ s.outcome?, ∀ o' ∈ t.outcome?, o = o') : s = t := by
  cases s <;> cases t <;> simp_all [stage, outcome?]

/-- A status leads to one that is not earlier, unless they are different outcomes. -/
theorem forward_of_stage_le (hle : s.stage ≤ t.stage)
    (hagree : ∀ o ∈ s.outcome?, ∀ o' ∈ t.outcome?, o = o') : Forward s t := by
  rcases Nat.lt_or_eq_of_le hle with hlt | heq
  · exact forward_of_stage_lt hlt
  · rw [eq_of_stage_eq heq hagree]
    exact .refl

/-- An outcome leads to no other. -/
theorem Forward.outcome_eq {o o' : MilestoneStatus} (h : Forward s t) (ho : s.outcome? = some o)
    (ho' : t.outcome? = some o') : o = o' := by
  obtain ⟨hs, rfl⟩ := stage_of_outcome? ho
  obtain ⟨ht, rfl⟩ := stage_of_outcome? ho'
  rcases forward_iff.1 h with heq | hlt
  · exact heq
  · omega

/-- Nothing else comes after an injection. -/
theorem Forward.of_injected (h : Forward .injected t) : t = .injected := by
  rcases forward_iff.1 h with heq | hlt
  · exact heq.symm
  · exact absurd hlt (Nat.not_lt.2 t.stage_le_two)

end MilestoneStatus

namespace Progress

/-- The outcome that an operation gives the milestone at a percentage. -/
def Op.outcome? (percentage : UInt32) : Op → Option MilestoneStatus
  | .markInjected p => if p = percentage then some .injected else none
  | .skip p => if p = percentage then some .skipped else none
  | .setTotal _ | .reset | .update _ | .increment _ => none

/-- What an operation that does not start over makes of a milestone. -/
def Op.change (α : Type) [Grade α] (p : Progress) (m : Milestone) : Op → Milestone
  | .update current => p.advance α current none m
  | .increment amount => p.advance α (p.advanced amount) none m
  | .markInjected percentage => if m.percentage = percentage then m.inject else m
  | .skip percentage => if m.percentage = percentage then m.skip else m
  | .setTotal _ | .reset => m

end Progress

namespace Milestone

open Progress (Op)

/-- The outcomes of a milestone: the one it has and those that operations give it, the last one at
the end. -/
def outcomes (m : Milestone) (ops : List Op) : List MilestoneStatus :=
  m.status.outcome?.toList ++ ops.filterMap (Op.outcome? m.percentage)

/-- **What becomes of a milestone** by operations that do not start over: it keeps its percentage
and its hack, comes to no earlier stage, and has the last outcome that it was given. -/
structure Undergoes (m : Milestone) (ops : List Op) (n : Milestone) : Prop where
  percentage : n.percentage = m.percentage
  hackId : n.hackId = m.hackId
  stage : m.status.stage ≤ n.status.stage
  outcome : n.status.outcome? = (m.outcomes ops).getLast?

variable {m n : Milestone} {ops : List Op}

/-- A milestone that is left as it is undergoes operations that give it no outcome. -/
theorem undergoes_self (h : ops.filterMap (Op.outcome? m.percentage) = []) : m.Undergoes ops m := by
  refine ⟨rfl, rfl, Nat.le_refl _, ?_⟩
  unfold outcomes
  rw [h, List.append_nil]
  cases m.status.outcome? <;> rfl

theorem Undergoes.refl (m : Milestone) : m.Undergoes [] m := undergoes_self rfl

theorem Undergoes.trans {o : Milestone} {later : List Op} (h : m.Undergoes ops n)
    (h' : n.Undergoes later o) : m.Undergoes (ops ++ later) o := by
  refine ⟨h'.percentage.trans h.percentage, h'.hackId.trans h.hackId, h.stage.trans h'.stage, ?_⟩
  have hsplit : m.outcomes (ops ++ later) =
      m.outcomes ops ++ later.filterMap (Op.outcome? m.percentage) := by
    simp [outcomes, List.filterMap_append]
  have hlast : n.status.outcome?.toList.getLast? = n.status.outcome? := by
    cases n.status.outcome? <;> rfl
  have hlater : (n.outcomes later).getLast? =
      (later.filterMap (Op.outcome? m.percentage)).getLast?.or (m.outcomes ops).getLast? := by
    unfold outcomes
    rw [h.percentage, List.getLast?_append, hlast, h.outcome]
    rfl
  rw [h'.outcome, hlater, hsplit, List.getLast?_append]

/-- **Every outcome that is given is the last one at some moment.** -/
theorem exists_last_of_mem_outcomes {o : MilestoneStatus} (h : o ∈ m.outcomes ops) :
    ∃ before between, ops = before ++ between ∧ (m.outcomes before).getLast? = some o := by
  rcases List.mem_append.1 h with hown | hgiven
  · -- the milestone has it before the first operation
    refine ⟨[], ops, rfl, ?_⟩
    unfold outcomes
    rw [Option.mem_toList.1 hown]
    rfl
  · obtain ⟨op, hop, ho⟩ := List.mem_filterMap.1 hgiven
    obtain ⟨before, between, rfl⟩ := List.append_of_mem hop
    refine ⟨before ++ [op], between, by simp, ?_⟩
    simp [outcomes, List.filterMap_append, ho]

/-- A milestone becomes reached only from pending, which is no outcome. -/
theorem undergoes_advance (α : Type) [Grade α] (p : Progress) (current : UInt64) {op : Op}
    (hop : op.outcome? m.percentage = none) : m.Undergoes [op] (p.advance α current none m) := by
  have hsilent : [op].filterMap (Op.outcome? m.percentage) = [] := by simp [hop]
  unfold Progress.advance
  split
  · rename_i hdue
    have hpending : m.status = .pending := (Progress.isDue_iff.1 hdue).1
    refine ⟨rfl, rfl, ?_, ?_⟩
    · rw [hpending]
      exact Nat.zero_le _
    · unfold outcomes
      rw [hsilent, hpending]
      rfl
  · exact undergoes_self hsilent

/-- An outcome that is noted at a percentage is given to the milestone there. -/
theorem undergoes_noted {op : Op} {percentage : UInt32} {o : MilestoneStatus}
    {f : Milestone → Milestone}
    (hop : op.outcome? m.percentage = if percentage = m.percentage then some o else none)
    (hstatus : (f m).status = o ∧ o.outcome? = some o)
    (hkeeps : (f m).percentage = m.percentage ∧ (f m).hackId = m.hackId) :
    m.Undergoes [op] (if m.percentage = percentage then f m else m) := by
  split
  · rename_i heq
    rw [if_pos heq.symm] at hop
    obtain ⟨rfl, ho⟩ := hstatus
    refine ⟨hkeeps.1, hkeeps.2, ?_, ?_⟩
    · rw [(MilestoneStatus.stage_of_outcome? ho).1]
      exact m.status.stage_le_two
    · simp [outcomes, hop, ho]
  · rename_i hne
    rw [if_neg (Ne.symm hne)] at hop
    exact undergoes_self (by simp [hop])

/-- **One operation** gives a milestone the outcome that it says, if it says one for it. -/
theorem undergoes_change (α : Type) [Grade α] (p : Progress) (m : Milestone) (op : Op) :
    m.Undergoes [op] (op.change α p m) := by
  cases op with
  | setTotal total => exact undergoes_self rfl
  | reset => exact undergoes_self rfl
  | update current => exact undergoes_advance α p current rfl
  | increment amount => exact undergoes_advance α p (p.advanced amount) rfl
  | markInjected percentage => exact undergoes_noted rfl ⟨rfl, rfl⟩ ⟨rfl, rfl⟩
  | skip percentage => exact undergoes_noted rfl ⟨rfl, rfl⟩ ⟨rfl, rfl⟩

end Milestone

namespace Progress

variable {α : Type} [Grade α] {p q : Progress} {op : Op} {ops later : List Op}

/-! ## Whatever is done -/

/-- Progress whose milestones are at the percentages of milestones, in order. -/
def Standing (p : Progress) : Prop := p.milestones.map (·.percentage) = Milestone.percentages

theorem Standing.nodup (hp : p.Standing) : (p.milestones.map (·.percentage)).Nodup := by
  rw [hp]
  exact Milestone.nodup_percentages

/-- **Every operation that does not start over** changes the milestones one by one. -/
theorem milestones_apply (hp : p.Standing) (hop : op.restarts = false) :
    (op.apply α p).milestones = p.milestones.map (op.change α p) := by
  cases op with
  | setTotal total | reset => cases hop
  | update current => exact milestones_update p current
  | increment amount => exact milestones_update p (p.advanced amount)
  | markInjected percentage => exact Milestone.changeAt_eq_map percentage .inject hp.nodup
  | skip percentage => exact Milestone.changeAt_eq_map percentage .skip hp.nodup

theorem Standing.apply (hp : p.Standing) (op : Op) : (op.apply α p).Standing := by
  cases hop : op.restarts with
  | true =>
    cases op with
    | setTotal total | reset => exact Milestone.map_percentage_initial p.hacks
    | update current | increment amount | markInjected percentage | skip percentage => cases hop
  | false =>
    unfold Standing
    rw [milestones_apply hp hop, List.map_map, ← hp]
    exact List.map_congr_left fun m _ => (Milestone.undergoes_change α p m op).percentage

theorem Standing.run (hp : p.Standing) (ops : List Op) : (p.run α ops).Standing := by
  induction ops generalizing p with
  | nil => exact hp
  | cons op ops ih => exact ih (hp.apply op)

/-- **A run that does not start over** changes the milestones one by one. -/
theorem exists_milestones_run (hp : p.Standing) (hops : ∀ op ∈ ops, op.restarts = false) :
    ∃ f : Milestone → Milestone,
      (p.run α ops).milestones = p.milestones.map f ∧ ∀ m : Milestone, m.Undergoes ops (f m) := by
  induction ops generalizing p with
  | nil => exact ⟨id, (List.map_id _).symm, .refl⟩
  | cons op ops ih =>
    obtain ⟨hop, hops⟩ := List.forall_mem_cons.1 hops
    obtain ⟨f, hf, hundergoes⟩ := ih (hp.apply (α := α) op) hops
    refine ⟨f ∘ op.change α p, ?_, fun m => ?_⟩
    · rw [← List.map_map, ← milestones_apply hp hop]
      exact hf
    · exact (Milestone.undergoes_change α p m op).trans (hundergoes _)

/-- At two moments of a run, each milestone of the start has come to two milestones. -/
theorem exists_moments (hp : p.Standing) {before between : List Op}
    (hops : ∀ op ∈ before ++ between, op.restarts = false) :
    ∃ f g : Milestone → Milestone,
      (p.run α before).milestones = p.milestones.map f ∧
        (p.run α (before ++ between)).milestones = p.milestones.map g ∧
          ∀ m : Milestone, m.Undergoes before (f m) ∧ m.Undergoes (before ++ between) (g m) ∧
            (f m).status.stage ≤ (g m).status.stage := by
  have hsplit : p.run α (before ++ between) = (p.run α before).run α between := List.foldl_append
  obtain ⟨f, hf, hbefore⟩ := exists_milestones_run (α := α) hp
    fun op hop => hops op (List.mem_append_left _ hop)
  obtain ⟨g, hg, hbetween⟩ := exists_milestones_run (α := α) (hp.run (α := α) before)
    fun op hop => hops op (List.mem_append_right _ hop)
  refine ⟨f, g ∘ f, hf, ?_, fun m => ⟨hbefore m, (hbefore m).trans (hbetween (f m)), ?_⟩⟩
  · rw [hsplit, hg, hf, List.map_map]
  · exact (hbetween (f m)).stage

/-! ## Going forward -/

/-- Every milestone has gone forward from one progress to another, place by place. -/
def GoesForward (p q : Progress) : Prop :=
  List.Forall₂ (fun m n : Milestone => m.status.Forward n.status) p.milestones q.milestones

/-- No milestone is given both outcomes, the one that it has included. -/
def Agreed (p : Progress) (ops : List Op) : Prop :=
  ∀ m ∈ p.milestones, ∀ o ∈ m.outcomes ops, ∀ o' ∈ m.outcomes ops, o = o'

theorem goesForward_map_iff {f g : Milestone → Milestone} {r : Progress}
    (hq : q.milestones = p.milestones.map f) (hr : r.milestones = p.milestones.map g) :
    q.GoesForward r ↔ ∀ m ∈ p.milestones, (f m).status.Forward (g m).status := by
  unfold GoesForward
  rw [hq, hr, List.forall₂_map_left_iff, List.forall₂_map_right_iff, List.forall₂_same]

/-- The milestones of a run go forward, from each moment to every later one. -/
def AlwaysForward (α : Type) [Grade α] (p : Progress) (ops : List Op) : Prop :=
  ∀ before between, before ++ between <+: ops →
    (p.run α before).GoesForward (p.run α (before ++ between))

/-- Where the outcomes agree, the milestones go forward. -/
theorem Agreed.alwaysForward (hp : p.Standing) (hops : ∀ op ∈ ops, op.restarts = false)
    (h : p.Agreed ops) : p.AlwaysForward α ops := by
  intro before between hpart
  have hmoments : ∀ op ∈ before ++ between, op.restarts = false :=
    fun op hop => hops op (hpart.subset hop)
  obtain ⟨f, g, hf, hg, hundergoes⟩ := exists_moments (α := α) hp hmoments
  rw [goesForward_map_iff hf hg]
  intro m hm
  obtain ⟨hbefore, hboth, hstage⟩ := hundergoes m
  refine MilestoneStatus.forward_of_stage_le hstage fun o ho o' ho' => ?_
  -- both are among the outcomes of the whole run
  have hmono : ∀ part, part <+: ops → ∀ o ∈ m.outcomes part, o ∈ m.outcomes ops := by
    intro part hfirst o ho
    refine (List.mem_append.1 ho).elim (List.mem_append_left _) fun hgiven => ?_
    exact List.mem_append_right _ ((hfirst.filterMap _).subset hgiven)
  rw [hbefore.outcome] at ho
  rw [hboth.outcome] at ho'
  exact h m hm o (hmono before ((List.prefix_append _ _).trans hpart) o (List.mem_of_getLast? ho))
    o' (hmono _ hpart o' (List.mem_of_getLast? ho'))

/-- Where the milestones go forward, each outcome that was given is the one at the end. -/
theorem AlwaysForward.agreed (hp : p.Standing) (hops : ∀ op ∈ ops, op.restarts = false)
    (h : p.AlwaysForward α ops) : p.Agreed ops := by
  have hlast : ∀ m ∈ p.milestones, ∀ o ∈ m.outcomes ops, (m.outcomes ops).getLast? = some o := by
    intro m hm o ho
    obtain ⟨before, between, rfl, hbefore⟩ := Milestone.exists_last_of_mem_outcomes ho
    obtain ⟨f, g, hf, hg, hundergoes⟩ := exists_moments (α := α) hp hops
    obtain ⟨hthen, hend, -⟩ := hundergoes m
    have hforward := (goesForward_map_iff hf hg).1 (h before between (List.prefix_refl _)) m hm
    cases hlast : (m.outcomes (before ++ between)).getLast? with
    | none =>
      rw [List.getLast?_eq_none_iff.1 hlast] at ho
      exact absurd ho List.not_mem_nil
    | some o' =>
      rw [hforward.outcome_eq (hthen.outcome.trans hbefore) (hend.outcome.trans hlast)]
  intro m hm o ho o' ho'
  exact Option.some.inj ((hlast m hm o ho).symm.trans (hlast m hm o' ho'))

/-! ## The count of injected milestones -/

theorem injectedCount_eq (p : Progress) :
    p.injectedCount = p.milestones.countP fun m => m.status = .injected :=
  List.countP_eq_length_filter.symm

/-- **Injected milestones only get more** where milestones go forward. -/
theorem GoesForward.injectedCount_le (h : p.GoesForward q) : p.injectedCount ≤ q.injectedCount := by
  rw [injectedCount_eq, injectedCount_eq]
  unfold GoesForward at h
  generalize p.milestones = ms at h
  generalize q.milestones = ns at h
  induction h with
  | nil => exact Nat.le_refl _
  | @cons m n ms ns hmn _ ih =>
    rw [List.countP_cons, List.countP_cons]
    by_cases hm : m.status = .injected
    · have hn : n.status = .injected := by
        rw [hm] at hmn
        exact hmn.of_injected
      rw [if_pos (decide_eq_true hm), if_pos (decide_eq_true hn)]
      omega
    · rw [if_neg (by simpa using hm)]
      omega

/-- An operation skips a milestone that was injected. -/
def Op.Withdraws (p : Progress) (op : Op) : Prop :=
  ∃ m ∈ p.milestones, m.status = .injected ∧ op = .skip m.percentage

/-- Any other operation leaves an injected milestone injected. -/
theorem injected_change {m : Milestone} (hm : m ∈ p.milestones) (hinjected : m.status = .injected)
    (hop : ¬ op.Withdraws p) : (op.change α p m).status = .injected := by
  have hreport : ∀ current, (p.advance α current none m).status = .injected := by
    intro current
    rw [(keeps_advance p current none m).settled (by simp [hinjected])]
    exact hinjected
  cases op with
  | setTotal total | reset => exact hinjected
  | update current | increment amount => exact hreport _
  | markInjected percentage =>
    change (if m.percentage = percentage then m.inject else m).status = .injected
    split
    · rfl
    · exact hinjected
  | skip percentage =>
    have hother : ¬ m.percentage = percentage := fun heq => hop ⟨m, hm, hinjected, by rw [heq]⟩
    change (if m.percentage = percentage then m.skip else m).status = .injected
    rw [if_neg hother]
    exact hinjected

/-- A skip makes no milestone injected. -/
theorem injected_of_skip {m : Milestone} {percentage : UInt32}
    (h : ((Op.skip percentage).change α p m).status = .injected) :
    m.status = .injected ∧ m.percentage ≠ percentage := by
  change (if m.percentage = percentage then m.skip else m).status = .injected at h
  split at h
  · cases h
  · rename_i hne
    exact ⟨h, hne⟩

/-- **The count of injected milestones falls** exactly where an injected one is skipped. -/
theorem injectedCount_apply_lt_iff (hp : p.Standing) (hop : op.restarts = false) :
    (op.apply α p).injectedCount < p.injectedCount ↔ op.Withdraws p := by
  have hcount : (op.apply α p).injectedCount =
      p.milestones.countP fun m => (op.change α p m).status = .injected := by
    rw [injectedCount_eq, milestones_apply hp hop, List.countP_map]
    rfl
  rw [hcount, injectedCount_eq]
  constructor
  · intro hlt
    by_contra hkept
    refine absurd hlt (Nat.not_lt.2 (List.countP_mono_left fun m hm hinjected => ?_))
    exact decide_eq_true (injected_change hm (of_decide_eq_true hinjected) hkept)
  · rintro ⟨m, hm, hinjected, rfl⟩
    obtain ⟨before, after, hsplit⟩ := List.append_of_mem hm
    have hothers : ∀ ms : List Milestone,
        ms.countP (fun n => ((Op.skip m.percentage).change α p n).status = .injected) ≤
          ms.countP (fun n => n.status = .injected) := fun ms =>
      List.countP_mono_left fun n _ hn => by simpa using (injected_of_skip (by simpa using hn)).1
    have hm' : ¬ ((Op.skip m.percentage).change α p m).status = .injected := fun h =>
      (injected_of_skip h).2 rfl
    have hbefore := hothers before
    have hafter := hothers after
    rw [hsplit, List.countP_append, List.countP_append,
      List.countP_cons_of_neg (by simpa using hm'),
      List.countP_cons_of_pos (by simpa using hinjected)]
    omega

/-- **When outcomes are final.** Take any hacks, any operations on their progress, and later ones
that do not start over. Each milestone keeps its percentage and its hack, comes to no earlier stage,
and has the last outcome that it was given. From each moment of the later run to every moment after
it the milestones go forward if and only if no milestone is given both outcomes, and then the count
of injected milestones never falls. An operation lowers that count exactly when it skips an injected
milestone. -/
theorem alwaysForward_iff_agreed (α : Type) [Grade α] (hacks : HackSet) (ops later : List Op)
    (hlater : ∀ op ∈ later, op.restarts = false) :
    let p := (ofHacks hacks).run α ops
    List.Forall₂ (fun m n => m.Undergoes later n) p.milestones (p.run α later).milestones ∧
      (p.AlwaysForward α later ↔ p.Agreed later) ∧
      (p.Agreed later → ∀ before between, before ++ between <+: later →
        (p.run α before).injectedCount ≤ (p.run α (before ++ between)).injectedCount) ∧
      ∀ op : Op, op.restarts = false →
        ((op.apply α p).injectedCount < p.injectedCount ↔
          ∃ m ∈ p.milestones, m.status = .injected ∧ op = .skip m.percentage) := by
  intro p
  have hstart : (ofHacks hacks).Standing := Milestone.map_percentage_initial hacks
  have hp : p.Standing := hstart.run ops
  obtain ⟨f, hf, hundergoes⟩ := exists_milestones_run (α := α) hp hlater
  refine ⟨?_, ⟨fun h => h.agreed hp hlater, fun h => h.alwaysForward hp hlater⟩,
    fun h before between hpart => ?_, fun op hop => injectedCount_apply_lt_iff hp hop⟩
  · rw [hf, List.forall₂_map_right_iff, List.forall₂_same]
    exact fun m _ => hundergoes m
  · exact (h.alwaysForward hp hlater before between hpart).injectedCount_le

/-- A milestone that is injected twice and another that is skipped go forward with the others. -/
theorem alwaysForward_standard :
    let p := (ofHacks .standard).run Rat [.update 45]
    let later : List Op := [.markInjected 20, .skip 60, .update 90, .markInjected 20]
    (∀ op ∈ later, op.restarts = false) ∧ p.AlwaysForward Rat later ∧
      (p.run Rat later).milestones.map (·.status) =
        [.injected, .reached, .skipped, .reached, .pending] := by
  intro p later
  have hlater : ∀ op ∈ later, op.restarts = false := by decide
  have hagreed : p.Agreed later := by
    unfold Agreed
    decide +kernel
  obtain ⟨-, hforward, -⟩ := alwaysForward_iff_agreed Rat .standard [.update 45] later hlater
  exact ⟨hlater, hforward.2 hagreed, by decide +kernel⟩

/-- **An injected milestone can be skipped**, which takes its outcome and the count back. -/
theorem not_goesForward_skip_injected :
    let p := (ofHacks .standard).run Float [.update 25, .markInjected 20]
    let q := p.run Float [.skip 20]
    p.milestones.map (·.status) = [.injected, .pending, .pending, .pending, .pending] ∧
      q.milestones.map (·.status) = [.skipped, .pending, .pending, .pending, .pending] ∧
      ¬ p.GoesForward q ∧ q.injectedCount < p.injectedCount := by
  intro p q
  have hfall : q.injectedCount < p.injectedCount := by decide +kernel
  refine ⟨by decide +kernel, by decide +kernel, fun h => ?_, hfall⟩
  exact Nat.not_lt.2 h.injectedCount_le hfall

end Progress

end CommandDesk
