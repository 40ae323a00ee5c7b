import CommandDesk.Desk
import CommandDesk.Proofs.Progress

/-!
# What comes of checking a command

A checked command comes back with its confirmation, with the prompt, and with the
ids of the hacks that were injected. The hacks are those of the occasion, in its
order, and then at most one for a milestone; what is reported is what was
injected (`enhance_reports`).
-/

namespace CommandDesk

/-- **The ids that an occasion brings along** are distinct. -/
theorem Integration.nodup_hacksFor (o : Integration) (mode : Mode) : (o.hacksFor mode).Nodup := by
  cases mode <;> unfold hacksFor <;> dsimp only
  case ambiguousRepair | highRiskConfirm | largeTaskConfirm => split <;> decide
  case errorRecovery | inputMissing => decide

namespace Desk

variable {α : Type} [Grade α]

/-- The prompt with hacks injected into it, one after the other. -/
def injectAll (d : Desk α) (hacks : List Hack) (prompt : String) : String :=
  hacks.foldl (fun p h => (Injection.inject p h d.injection).injected) prompt

/-- The ids of the hacks that the occasion for a confirmation brings along. -/
def occasionIds (d : Desk α) (mode : Option Mode) : List String :=
  (mode.map d.integration.hacksFor).getD []

/-- The hacks that are injected for the occasion on which a command is confirmed. -/
def promptHacks (d : Desk α) (command : Command) (c : Context α) : List Hack :=
  d.occasionHacks (d.protocol.check command c).mode

/-- The hack that is injected for a milestone when progress is reported with a command. -/
def lateHack? (d : Desk α) (command : Command) (c : Context α) : Option Hack :=
  if c.progress = 0 then none
  else d.milestoneHack? c.progress ((d.promptHacks command c).map (·.id))

/-- All hacks that are injected, in order. -/
def injectedHacks (d : Desk α) (command : Command) (c : Context α) : List Hack :=
  d.promptHacks command c ++ (d.lateHack? command c).toList

variable {d : Desk α} {command : Command} {c : Context α}

omit [Grade α] in
/-- Injecting hacks notes their ids. -/
theorem foldl_inject (d : Desk α) (hacks : List Hack) (e : Enhanced) :
    hacks.foldl (fun e h => e.inject d.injection h) e =
      ⟨d.injectAll hacks e.prompt, e.applied ++ hacks.map (·.id)⟩ := by
  induction hacks generalizing e with
  | nil => simp [injectAll]
  | cons h hs ih =>
    rw [List.foldl_cons, ih]
    simp [Enhanced.inject, injectAll]

/-- **What checking a command does**, part by part. -/
theorem enhance_eq (d : Desk α) (stamp : Stamp) (command : Command) (prompt : String)
    (c : Context α) :
    d.enhance stamp command prompt c =
      ({ d with
          progress := if c.progress = 0 then d.progress
            else d.noteProgress c.progress (d.lateHack? command c)
          history := if d.integration.recordHistory then
              d.history.push (.ofCommand stamp command.text command.name)
            else d.history },
        { response := d.protocol.check command c
          prompt := d.injectAll (d.injectedHacks command c) prompt
          appliedHacks := (d.injectedHacks command c).map (·.id) }) := by
  unfold enhance
  dsimp only
  rw [foldl_inject]
  dsimp only
  rw [List.nil_append]
  have hlate : (if c.progress = 0 then none else
      d.milestoneHack? c.progress ((d.promptHacks command c).map (·.id))) =
      d.lateHack? command c := rfl
  unfold promptHacks at hlate
  rw [hlate]
  unfold injectedHacks promptHacks
  cases d.lateHack? command c with
  | none => simp
  | some h => simp [Enhanced.inject, injectAll]

/-! ## The hacks -/

/-- For the occasion the enabled hacks among its own are injected. -/
theorem map_id_promptHacks (d : Desk α) (command : Command) (c : Context α) :
    (d.promptHacks command c).map (·.id) =
      (d.occasionIds (d.protocol.check command c).mode).filter d.progress.hacks.isEnabled :=
  HackSet.map_id_filterMap _ _

omit [Grade α] in
theorem nodup_occasionIds (d : Desk α) (mode : Option Mode) : (d.occasionIds mode).Nodup := by
  cases mode with
  | none => exact .nil
  | some mode => exact d.integration.nodup_hacksFor mode

theorem get?_of_mem_promptHacks {h : Hack} (hmem : h ∈ d.promptHacks command c) :
    d.progress.hacks.get? h.id = some h ∧ h.enabled = true := by
  obtain ⟨id, -, hfilter⟩ := List.mem_filterMap.1 hmem
  obtain ⟨hget, henabled⟩ := Option.filter_eq_some_iff.1 hfilter
  obtain rfl := HackSet.id_of_get? hget
  exact ⟨hget, henabled⟩

/-- **The hack for a milestone** belongs to one that is due, is enabled, and was not injected for
the occasion already. -/
theorem lateHack?_eq_some {h : Hack} (hlate : d.lateHack? command c = some h) :
    c.progress ≠ 0 ∧ d.progress.due? α (UInt64.ofNat c.progress.toNat) = some h ∧
      h.id ∉ (d.promptHacks command c).map (·.id) := by
  unfold lateHack? at hlate
  split at hlate
  · cases hlate
  · rename_i hzero
    obtain ⟨hdue, hnew⟩ := Option.filter_eq_some_iff.1 hlate
    refine ⟨hzero, hdue, fun hmem => ?_⟩
    rw [List.contains_iff_mem.2 hmem] at hnew
    cases hnew

/-- No hack is injected twice. -/
theorem nodup_injectedHacks (d : Desk α) (command : Command) (c : Context α) :
    ((d.injectedHacks command c).map (·.id)).Nodup := by
  unfold injectedHacks
  rw [List.map_append]
  have hoccasion : ((d.promptHacks command c).map (·.id)).Nodup := by
    rw [map_id_promptHacks]
    exact (d.nodup_occasionIds _).filter _
  cases hlate : d.lateHack? command c with
  | none => simpa using hoccasion
  | some h =>
    have hnew := (lateHack?_eq_some hlate).2.2
    refine List.nodup_append.2 ⟨hoccasion, List.nodup_singleton _, fun a ha b hb => ?_⟩
    obtain rfl := List.mem_singleton.1 hb
    rintro rfl
    exact hnew ha

/-- Every hack that is injected is found under its id, and enabled. -/
theorem get?_of_mem_injectedHacks {h : Hack} (hmem : h ∈ d.injectedHacks command c) :
    d.progress.hacks.get? h.id = some h ∧ h.enabled = true := by
  rcases List.mem_append.1 hmem with hoccasion | hlate
  · exact get?_of_mem_promptHacks hoccasion
  · obtain ⟨-, hdue, -⟩ := lateHack?_eq_some (Option.mem_toList.1 hlate)
    obtain ⟨m, -, -, -, hfound⟩ := Progress.exists_isDue_of_due? hdue
    exact hfound

/-- Whatever is injected, the percentage is that of the count that was reported. -/
theorem percentage_noteProgress (d : Desk α) (progress : UInt32) (injected : Option Hack) :
    (d.noteProgress progress injected).percentage α =
      { d.progress with current := UInt64.ofNat progress.toNat }.percentage α := by
  unfold noteProgress
  cases injected <;> rfl

/-! ## The report -/

/-- **Checking a command reports what it did.** The hacks are the enabled ones of the occasion, in
its order, and then at most one for a milestone that the reported progress has reached; each is
enabled and none comes twice. The prompt has them injected in that order, and stays as it was only
where there are none. If commands are recorded the command becomes the newest entry of the history,
which forgets what was undone and, when it is full, its oldest entry; otherwise the history is left
alone. -/
theorem enhance_reports (d : Desk α) (stamp : Stamp) (command : Command) (prompt : String)
    (c : Context α) :
    let (e, outcome) := d.enhance stamp command prompt c
    let response := d.protocol.check command c
    ∃ (occasion : List Hack) (late : Option Hack),
      let hacks := occasion ++ late.toList
      outcome.response = response ∧
      (outcome.appliedHacks = hacks.map (·.id) ∧ outcome.appliedHacks.Nodup ∧
        ∀ h ∈ hacks, d.progress.hacks.get? h.id = some h ∧ h.enabled = true) ∧
      occasion.map (·.id) = (d.occasionIds response.mode).filter d.progress.hacks.isEnabled ∧
      (∀ h ∈ late, 0 < c.progress ∧ ∃ m ∈ d.progress.milestones, m.status = .pending ∧
        m.hackId = some h.id ∧ ¬ e.progress.percentage α < Grade.ofNat m.percentage.toNat) ∧
      (outcome.prompt =
          hacks.foldl (fun p h => (Injection.inject p h d.injection).injected) prompt ∧
        (outcome.prompt = prompt ↔ outcome.appliedHacks = [])) ∧
      (d.integration.recordHistory = true → ∃ s : Snapshot, s.command = command.text ∧
        e.history.undone = [] ∧
        e.history.done = s :: if d.history.done.length = d.history.limit
          then d.history.done.dropLast else d.history.done) ∧
      (d.integration.recordHistory = false → e.history = d.history) := by
  rw [enhance_eq]
  dsimp only
  refine ⟨d.promptHacks command c, d.lateHack? command c, rfl,
    ⟨rfl, d.nodup_injectedHacks command c, fun h => get?_of_mem_injectedHacks⟩,
    d.map_id_promptHacks command c, fun h hlate => ?_, ⟨rfl, ?_⟩, fun hrecord => ?_,
    fun hrecord => ?_⟩
  · obtain ⟨hzero, hdue, -⟩ := lateHack?_eq_some hlate
    obtain ⟨m, hm, hreached, hid, -⟩ := Progress.exists_isDue_of_due? hdue
    obtain ⟨hpending, hpercentage⟩ := Progress.isDue_iff.1 hreached
    rw [if_neg hzero, percentage_noteProgress]
    exact ⟨UInt32.pos_iff_ne_zero.2 hzero, m, hm, hpending, hid, hpercentage⟩
  · rw [List.map_eq_nil_iff]
    exact Injection.foldl_inject_eq_iff _ _ _
  · rw [if_pos hrecord]
    exact ⟨.ofCommand stamp command.text command.name, rfl, rfl, rfl⟩
  · rw [hrecord]
    rfl

end Desk

end CommandDesk
