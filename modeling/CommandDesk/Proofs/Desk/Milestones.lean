import CommandDesk.Proofs.Desk.Enhance

/-!
# Milestones over a run

Commands are checked one after another, each with a report of progress or none,
and the reports may rise and fall. A milestone is pending as long as every report
was below it (`pending_serveAll_iff`) and then never changes again, so its hack
is injected at most once, by the command that crossed it
(`milestones_fire_once`).
-/

namespace CommandDesk

namespace Desk

section

variable {α : Type} [Grade α]

/-- A command to be checked, with all that goes with it. -/
structure Call (α : Type) where
  stamp : Stamp
  command : Command
  prompt : String
  context : Context α

/-- Check the command of a call. -/
def serve (d : Desk α) (c : Call α) : Desk α × Outcome α :=
  d.enhance c.stamp c.command c.prompt c.context

/-- The desk after calls in turn. -/
def serveAll (d : Desk α) (calls : List (Call α)) : Desk α :=
  calls.foldl (fun d c => (d.serve c).1) d

/-- The hack that a call injects for a milestone. -/
def milestoneHackOf (d : Desk α) (c : Call α) : Option Hack := d.lateHack? c.command c.context

/-- The hacks that calls in turn inject for milestones. -/
def milestoneHacks (d : Desk α) : List (Call α) → List Hack
  | [] => []
  | c :: calls => (d.milestoneHackOf c).toList ++ milestoneHacks (d.serve c).1 calls

/-- The desk with a set of hacks, and no progress yet. -/
def withHacks (d : Desk α) (hacks : HackSet) : Desk α := { d with progress := .ofHacks hacks }

variable {d : Desk α} {c : Call α} {h : Hack}

/-! ## One call -/

/-- A call injects the hacks of the occasion, and then the one for a milestone. -/
theorem appliedHacks_serve (d : Desk α) (c : Call α) :
    (d.serve c).2.appliedHacks =
      (d.promptHacks c.command c.context).map (·.id) ++
        (d.milestoneHackOf c).toList.map (·.id) := by
  unfold serve
  rw [enhance_eq]
  exact List.map_append

theorem prompt_serve (d : Desk α) (c : Call α) :
    let draft := d.injectAll (d.promptHacks c.command c.context) c.prompt
    (d.serve c).2.prompt = (d.milestoneHackOf c).elim draft fun h =>
      (Injection.inject draft h d.injection).injected := by
  unfold serve milestoneHackOf
  rw [enhance_eq]
  dsimp only
  unfold injectedHacks injectAll
  rw [List.foldl_append]
  cases d.lateHack? c.command c.context <;> rfl

/-- A call without a report of progress leaves the progress alone. -/
theorem progress_serve (d : Desk α) (c : Call α) :
    (d.serve c).1.progress = if c.context.progress = 0 then d.progress
      else d.noteProgress c.context.progress (d.milestoneHackOf c) := by
  unfold serve
  rw [enhance_eq]
  rfl

/-- **What a call makes of the milestones.** -/
theorem milestones_serve (hd : d.progress.Scheduled) (hreport : c.context.progress ≠ 0) :
    (d.serve c).1.progress.milestones = d.progress.milestones.map
      (d.progress.advance α (UInt64.ofNat c.context.progress.toNat) (d.milestoneHackOf c)) := by
  rw [progress_serve, if_neg hreport]
  cases hhack : d.milestoneHackOf c with
  | none => exact Progress.milestones_update _ _
  | some h => exact Progress.milestones_markInjected hd.toPlanned (lateHack?_eq_some hhack).2.1

theorem advances_serve (hd : d.progress.Scheduled) (c : Call α) :
    d.progress.Advances (d.serve c).1.progress := by
  by_cases hreport : c.context.progress = 0
  · rw [progress_serve, if_pos hreport]
    exact .refl _
  · refine ⟨?_, ?_, _, milestones_serve hd hreport, d.progress.keeps_advance _ _⟩
    all_goals
      rw [progress_serve, if_neg hreport]
      unfold noteProgress
      cases d.milestoneHackOf c <;> rfl

/-- The hack that a call injects for a milestone is found under its id, and belongs to a milestone
that was due. -/
theorem exists_due_of_milestoneHackOf (hd : d.progress.Scheduled)
    (hhack : d.milestoneHackOf c = some h) :
    d.progress.hacks.get? h.id = some h ∧ ∃ m ∈ d.progress.milestones,
      m.percentage = h.milestone ∧ m.status = .pending ∧ m.hackId = some h.id := by
  obtain ⟨-, hdue, -⟩ := lateHack?_eq_some hhack
  obtain ⟨m, hm, hreached, hid, hget, -⟩ := Progress.exists_isDue_of_due? hdue
  exact ⟨hget, m, hm, hd.toPlanned.percentage_eq hm hid hget,
    (Progress.isDue_iff.1 hreached).1, hid⟩

/-- A milestone keeps its place. -/
theorem getElem?_serve (hd : d.progress.Scheduled) {i : Nat} {m : Milestone}
    (hm : d.progress.milestones[i]? = some m) :
    (d.serve c).1.progress.milestones[i]? = some
      (if c.context.progress = 0 then m else d.progress.advance α
        (UInt64.ofNat c.context.progress.toNat) (d.milestoneHackOf c) m) := by
  by_cases hreport : c.context.progress = 0
  · rw [progress_serve, if_pos hreport, if_pos hreport, hm]
  · rw [milestones_serve hd hreport, List.getElem?_map, hm, if_neg hreport]
    rfl

/-- **A milestone becomes injected** only when it is due, and when its own hack is injected. -/
theorem injected_serve (hd : d.progress.Scheduled) {i : Nat} {m n : Milestone}
    (hm : d.progress.milestones[i]? = some m)
    (hn : (d.serve c).1.progress.milestones[i]? = some n)
    (hbefore : m.status ≠ .injected) (hafter : n.status = .injected) :
    { d.progress with current := UInt64.ofNat c.context.progress.toNat }.isDue α m = true ∧
      ∃ h ∈ d.milestoneHackOf c, m.hackId = some h.id := by
  rw [getElem?_serve hd hm, Option.some_inj] at hn
  subst hn
  split at hafter
  · exact absurd hafter hbefore
  · rcases Progress.injected_advance hafter with hinjected | ⟨hdue, h, hhack, hmilestone⟩
    · exact absurd hinjected hbefore
    · -- the milestone that the hack was found for is at the same percentage
      obtain ⟨-, own, hown, hpercentage, -, hid⟩ := exists_due_of_milestoneHackOf hd hhack
      have hsame : own = m := hd.toPlanned.eq_of_percentage hown (List.mem_of_getElem? hm)
        (hpercentage.trans hmilestone)
      exact ⟨hdue, h, hhack, hsame ▸ hid⟩

/-- The milestone of a hack that was injected is no longer pending. -/
theorem not_pending_serve (hd : d.progress.Scheduled) (hhack : d.milestoneHackOf c = some h)
    {n : Milestone} (hn : n ∈ (d.serve c).1.progress.milestones)
    (hpercentage : n.percentage = h.milestone) : n.status ≠ .pending := by
  obtain ⟨hreport, hdue, -⟩ := lateHack?_eq_some hhack
  obtain ⟨own, hown, hreached, hid, hget, -⟩ := Progress.exists_isDue_of_due? hdue
  rw [milestones_serve hd hreport] at hn
  obtain ⟨m, hm, rfl⟩ := List.mem_map.1 hn
  rw [(d.progress.keeps_advance _ _ m).percentage,
    ← hd.toPlanned.percentage_eq hown hid hget] at hpercentage
  obtain rfl := hd.toPlanned.eq_of_percentage hm hown hpercentage
  exact fun hpending => (Progress.pending_advance_iff.1 hpending).2 hreached

/-! ## Calls in turn -/

theorem advances_serveAll (hd : d.progress.Scheduled) (calls : List (Call α)) :
    d.progress.Advances (d.serveAll calls).progress := by
  induction calls generalizing d with
  | nil => exact .refl _
  | cons c calls ih =>
    have hstep := advances_serve hd c
    exact hstep.trans (ih (hd.advances hstep))

/-- The hacks that are injected for milestones belong to milestones that are pending at first. -/
theorem exists_pending_of_mem_milestoneHacks (hd : d.progress.Scheduled) {calls : List (Call α)}
    (hmem : h ∈ d.milestoneHacks calls) :
    d.progress.hacks.get? h.id = some h ∧
      ∃ m ∈ d.progress.milestones, m.percentage = h.milestone ∧ m.status = .pending := by
  induction calls generalizing d with
  | nil => exact absurd hmem List.not_mem_nil
  | cons c calls ih =>
    rcases List.mem_append.1 hmem with hfirst | hlater
    · obtain ⟨hget, m, hm, hpercentage, hpending, -⟩ :=
        exists_due_of_milestoneHackOf hd (Option.mem_toList.1 hfirst)
      exact ⟨hget, m, hm, hpercentage, hpending⟩
    · have hstep := advances_serve hd c
      obtain ⟨hget, n, hn, hpercentage, hpending⟩ := ih (hd.advances hstep) hlater
      obtain ⟨m, hm, hkeeps⟩ := hstep.exists_of_mem hn
      rw [hstep.hacks] at hget
      exact ⟨hget, m, hm, hkeeps.percentage.symm.trans hpercentage, hkeeps.pending hpending⟩

/-- **No hack is injected twice for a milestone.** -/
theorem nodup_milestoneHacks (hd : d.progress.Scheduled) (calls : List (Call α)) :
    ((d.milestoneHacks calls).map (·.id)).Nodup := by
  induction calls generalizing d with
  | nil => exact .nil
  | cons c calls ih =>
    have hstep := advances_serve hd c
    have hrest := ih (hd.advances hstep)
    unfold milestoneHacks
    cases hhack : d.milestoneHackOf c with
    | none => exact hrest
    | some h =>
      refine List.nodup_cons.2 ⟨fun hagain => ?_, hrest⟩
      -- it would have to be pending once more
      obtain ⟨again, hmem, hid⟩ := List.mem_map.1 hagain
      obtain ⟨hget, n, hn, hpercentage, hpending⟩ :=
        exists_pending_of_mem_milestoneHacks (hd.advances hstep) hmem
      have hfirst := (exists_due_of_milestoneHackOf hd hhack).1
      rw [hstep.hacks, hid, hfirst] at hget
      obtain rfl := Option.some.inj hget
      exact not_pending_serve hd hhack hn hpercentage hpending

end

/-! ## Exact percentages -/

section

variable {d : Desk Rat} {i : Nat} {m n : Milestone}

/-- A pending milestone stays pending when the report is below it. -/
theorem pending_serve_iff (hd : d.progress.Scheduled) {c : Call Rat}
    (hm : d.progress.milestones[i]? = some m)
    (hn : (d.serve c).1.progress.milestones[i]? = some n) :
    n.status = .pending ↔ m.status = .pending ∧ c.context.progress < m.percentage := by
  rw [getElem?_serve hd hm, Option.some_inj] at hn
  subst hn
  by_cases hreport : c.context.progress = 0
  · have hpos := hd.toPlanned.percentage_pos (List.mem_of_getElem? hm)
    rw [if_pos hreport, hreport]
    exact (and_iff_left hpos).symm
  · rw [if_neg hreport, Progress.pending_advance_iff, Progress.isDue_rat hd.total, not_and,
      UInt32.not_le]
    exact ⟨fun ⟨hpending, hbelow⟩ => ⟨hpending, hbelow hpending⟩,
      fun ⟨hpending, hbelow⟩ => ⟨hpending, fun _ => hbelow⟩⟩

/-- **A milestone is pending as long as every report is below it.** -/
theorem pending_serveAll_iff (hd : d.progress.Scheduled) {calls : List (Call Rat)}
    (hm : d.progress.milestones[i]? = some m)
    (hn : (d.serveAll calls).progress.milestones[i]? = some n) :
    n.status = .pending ↔
      m.status = .pending ∧ ∀ c ∈ calls, c.context.progress < m.percentage := by
  induction calls generalizing d m with
  | nil =>
    obtain rfl : m = n := Option.some.inj (hm.symm.trans hn)
    simp
  | cons c calls ih =>
    have hstep := advances_serve hd c
    obtain ⟨o, ho, hkeeps⟩ := hstep.getElem? hm
    rw [ih (hd.advances hstep) ho hn, pending_serve_iff hd hm ho, hkeeps.percentage, and_assoc,
      List.forall_mem_cons]

/-- **Each milestone fires at most once.** A desk starts with a set of hacks of distinct ids, and
checks commands in turn, whatever progress they report. Beyond the hacks of the occasion a command
gets at most one for a milestone, and over the whole run none of these twice. A milestone that is no
longer pending never changes again. It becomes injected by the command whose report was the first to
reach its percentage, and only when its own hack was injected there. Injected milestones only get
more, and pending ones fewer. -/
theorem milestones_fire_once (d : Desk Rat) (hacks : HackSet) (earlier later : List (Call Rat))
    (c : Call Rat) (hids : (hacks.hacks.map (·.id)).Nodup) :
    let start := d.withHacks hacks
    let before := start.serveAll earlier
    let next := (before.serve c).1
    let outcome := (before.serve c).2
    let last := next.serveAll later
    let late := before.milestoneHackOf c
    let draft := before.injectAll (before.promptHacks c.command c.context) c.prompt
    (outcome.appliedHacks =
          (before.promptHacks c.command c.context).map (·.id) ++ late.toList.map (·.id) ∧
        outcome.prompt =
          late.elim draft fun h => (Injection.inject draft h before.injection).injected) ∧
      ((start.milestoneHacks (earlier ++ c :: later)).map (·.id)).Nodup ∧
      last.progress.milestones.map (·.percentage) = Milestone.percentages ∧
      (∀ (i : Nat) (m : Milestone), before.progress.milestones[i]? = some m →
        m.status ≠ .pending → last.progress.milestones[i]? = some m) ∧
      (∀ (i : Nat) (m n : Milestone), before.progress.milestones[i]? = some m →
        next.progress.milestones[i]? = some n → m.status ≠ .injected → n.status = .injected →
        (∀ e ∈ earlier, e.context.progress < m.percentage) ∧
          m.percentage ≤ c.context.progress ∧ ∃ h ∈ late, m.hackId = some h.id) ∧
      before.progress.injectedCount ≤ last.progress.injectedCount ∧
      last.progress.remainingCount ≤ before.progress.remainingCount := by
  intro start before
  have hstart : start.progress.Scheduled := Progress.scheduled_ofHacks hids
  have hearlier := advances_serveAll hstart earlier
  have hbefore : before.progress.Scheduled := hstart.advances hearlier
  have hcall := advances_serve hbefore c
  have hlast := hcall.trans (advances_serveAll (hbefore.advances hcall) later)
  refine ⟨⟨appliedHacks_serve before c, prompt_serve before c⟩, nodup_milestoneHacks hstart _,
    (hbefore.advances hlast).percentages, fun i m hm hsettled => ?_,
    fun i m n hm hn hnot hinjected => ?_, hlast.injectedCount_le, hlast.remainingCount_le⟩
  · obtain ⟨n, hn, hkeeps⟩ := hlast.getElem? hm
    rw [hn, hkeeps.settled hsettled]
  · obtain ⟨hdue, hown⟩ := injected_serve hbefore hm hn hnot hinjected
    obtain ⟨hpending, hreached⟩ := (Progress.isDue_rat hbefore.total).1 hdue
    -- it was pending until this command, so no report before had reached it
    obtain ⟨first, hfirst, hkeeps⟩ := hearlier.exists_getElem? hm
    have hbelow := ((pending_serveAll_iff hstart hfirst hm).1 hpending).2
    rw [← hkeeps.percentage] at hbelow
    exact ⟨hbelow, hreached, hown⟩

/-- A command that needs no confirmation, with a report of progress. -/
def report (progress : UInt32) : Call Rat :=
  ⟨⟨0, 0⟩, .ofName "list-files", "Go", { reportedProgress := some progress }⟩

/-- A run in which the progress falls back before it reaches the second milestone. -/
theorem milestones_fire_once_standard :
    (HackSet.standard.hacks.map (·.id)).Nodup ∧
      let start := (Desk.standard : Desk Rat).withHacks .standard
      let run := [report 10] ++ report 25 :: [report 5, report 45]
      (start.milestoneHacks run).map (·.id) = ["clarify", "web_backed"] ∧
        ((start.milestoneHacks run).map (·.id)).Nodup ∧
        (start.serveAll [report 10]).progress.injectedCount ≤
          (((start.serveAll [report 10]).serve (report 25)).1.serveAll
            [report 5, report 45]).progress.injectedCount := by
  have hids : (HackSet.standard.hacks.map (·.id)).Nodup := by decide
  obtain ⟨-, hnodup, -, -, -, hcount, -⟩ := milestones_fire_once Desk.standard .standard
    [report 10] [report 5, report 45] (report 25) hids
  exact ⟨hids, by decide +kernel, hnodup, hcount⟩

end

end Desk

end CommandDesk
