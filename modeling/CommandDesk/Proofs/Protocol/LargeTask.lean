import CommandDesk.Proofs.Protocol

/-!
# How a task is found to be large

A task is found to be large by its tokens or by the estimate of its steps
(`LargeByEstimate`). What is then said and offered goes by the number of its
steps, which is that of the listed ones where there are any. The two counts are
the same for a task that lists no steps. Where steps are listed they can part,
and in two ways: a long list passes unasked when the estimate does not show it
(`Overlooked`), and a short one is asked about when the estimate is larger
(`Overestimated`). These are the only tasks that are not found to be large by the
number of their steps (`checkLargeTask_by_estimate`).
-/

namespace CommandDesk

variable {α : Type}

namespace Context

variable {c : Context α}

theorem stepCount_of_unlisted (h : c.workflowSteps = []) :
    c.stepCount = c.estimatedSteps.toNat := by
  simp [stepCount, h]

theorem stepCount_of_listed (h : c.workflowSteps ≠ []) :
    c.stepCount = c.workflowSteps.length := by
  simp [stepCount, h]

end Context

namespace Limits

/-- The task is large by its tokens or by the estimate of its steps. -/
def LargeByEstimate (l : Limits α) (c : Context α) : Prop :=
  l.tokens < c.tokens ∨ l.steps < c.estimatedSteps

/-- The task is large by its tokens or by the number of its steps. -/
def LargeByCount (l : Limits α) (c : Context α) : Prop :=
  l.tokens < c.tokens ∨ l.steps.toNat < c.stepCount

instance (l : Limits α) (c : Context α) : Decidable (l.LargeByCount c) :=
  inferInstanceAs (Decidable (_ ∨ _))

/-- More steps are listed than the limit allows, and nothing else shows that the task is large. -/
structure Overlooked (l : Limits α) (c : Context α) : Prop where
  tokens : c.tokens ≤ l.tokens
  estimate : c.estimatedSteps ≤ l.steps
  listed : l.steps.toNat < c.workflowSteps.length

/-- The task is large by the estimate only, and the listed steps are no more than the limit
allows. -/
structure Overestimated (l : Limits α) (c : Context α) : Prop where
  tokens : c.tokens ≤ l.tokens
  estimate : l.steps < c.estimatedSteps
  listed : c.workflowSteps ≠ []
  allowed : c.workflowSteps.length ≤ l.steps.toNat

variable {l : Limits α} {command : Command} {c : Context α}

/-- Something makes the task large exactly when its tokens or the estimate do. -/
theorem isSome_largeCause_iff : (l.largeCause c).isSome = true ↔ l.LargeByEstimate c := by
  unfold largeCause LargeByEstimate
  by_cases htokens : l.tokens < c.tokens
  · rw [if_pos htokens]
    exact iff_of_true rfl (.inl htokens)
  · rw [if_neg htokens]
    by_cases hsteps : l.steps < c.estimatedSteps
    · rw [if_pos hsteps]
      exact iff_of_true rfl (.inr hsteps)
    · rw [if_neg hsteps]
      exact iff_of_false Bool.false_ne_true fun h => h.elim htokens hsteps

/-- **The check goes by the estimate.** -/
theorem isSome_checkLargeTask_iff :
    (l.checkLargeTask command c).isSome = true ↔ l.LargeByEstimate c := by
  unfold checkLargeTask
  rw [Option.isSome_map, isSome_largeCause_iff]

/-- Without listed steps the two counts are the same. -/
theorem largeByEstimate_iff_of_unlisted (h : c.workflowSteps = []) :
    l.LargeByEstimate c ↔ l.LargeByCount c := by
  unfold LargeByEstimate LargeByCount
  rw [Context.stepCount_of_unlisted h, UInt32.lt_iff_toNat_lt]

theorem Overlooked.largeByCount (h : l.Overlooked c) : l.LargeByCount c := by
  have hlisted : c.workflowSteps ≠ [] := by
    intro hnil
    have hlt := h.listed
    rw [hnil] at hlt
    exact absurd hlt (Nat.not_lt_zero _)
  refine .inr ?_
  rw [Context.stepCount_of_listed hlisted]
  exact h.listed

theorem Overlooked.not_largeByEstimate (h : l.Overlooked c) : ¬ l.LargeByEstimate c :=
  fun hlarge => hlarge.elim (UInt64.not_lt.2 h.tokens) (UInt32.not_lt.2 h.estimate)

theorem Overestimated.largeByEstimate (h : l.Overestimated c) : l.LargeByEstimate c :=
  .inr h.estimate

theorem Overestimated.not_largeByCount (h : l.Overestimated c) : ¬ l.LargeByCount c := by
  rintro (htokens | hsteps)
  · exact UInt64.not_lt.2 h.tokens htokens
  · rw [Context.stepCount_of_listed h.listed] at hsteps
    exact absurd h.allowed (Nat.not_le.2 hsteps)

/-- **Where the estimate and the number of the steps part**: on the tasks that are overlooked and on
those that are overestimated, and on no others. -/
theorem largeByEstimate_iff_largeByCount_iff :
    (l.LargeByEstimate c ↔ l.LargeByCount c) ↔ ¬ (l.Overlooked c ∨ l.Overestimated c) := by
  constructor
  · rintro hagree (h | h)
    · exact h.not_largeByEstimate (hagree.2 h.largeByCount)
    · exact h.not_largeByCount (hagree.1 h.largeByEstimate)
  · intro hnone
    by_cases hlisted : c.workflowSteps = []
    · exact largeByEstimate_iff_of_unlisted hlisted
    by_cases htokens : l.tokens < c.tokens
    · exact iff_of_true (.inl htokens) (.inl htokens)
    -- the tokens do not decide, so the limit is passed by both counts or by neither
    have htokens' : c.tokens ≤ l.tokens := UInt64.not_lt.1 htokens
    have hsteps : l.steps < c.estimatedSteps ↔ l.steps.toNat < c.workflowSteps.length := by
      constructor
      · intro hestimate
        by_contra hallowed
        exact hnone (.inr ⟨htokens', hestimate, hlisted, Nat.not_lt.1 hallowed⟩)
      · intro hlong
        by_contra hestimate
        exact hnone (.inl ⟨htokens', UInt32.not_lt.1 hestimate, hlong⟩)
    unfold LargeByEstimate LargeByCount
    rw [Context.stepCount_of_listed hlisted, hsteps]

variable [Grade α]

/-- **A large task is recognised by the estimate of its steps and presented with their number.**
The check fires when the tokens or the estimate are above the limit. This is as if it went by the
number of the steps on all tasks but those that are overlooked and those that are overestimated; in
particular on all that list no steps. A confirmation that is asked for because of it names the
number of the steps, offers to run them or half of them by that number, and lists them. -/
theorem checkLargeTask_by_estimate (l : Limits α) (command : Command) (c : Context α) :
    ((l.checkLargeTask command c).isSome = true ↔
        l.tokens < c.tokens ∨ l.steps < c.estimatedSteps) ∧
      (((l.checkLargeTask command c).isSome = true ↔
          l.tokens < c.tokens ∨ l.steps.toNat < c.stepCount) ↔
        ¬ (l.Overlooked c ∨ l.Overestimated c)) ∧
      (c.workflowSteps = [] → ((l.checkLargeTask command c).isSome = true ↔
        l.tokens < c.tokens ∨ l.steps.toNat < c.stepCount)) ∧
      ∀ p : Protocol α, p.limits = l → (p.check command c).mode = some .largeTaskConfirm →
        (l.checkLargeTask command c).isSome = true ∧
          (p.check command c).reason =
            "Large task: about " ++ Decimal.natString c.stepCount ++ " steps, ~" ++
              Decimal.natString c.tokens.toNat ++ " tokens" ∧
          (p.check command c).suggestions =
            Suggestion.forLargeTask p.maxSuggestions command c.stepCount ∧
          (p.check command c).question = Protocol.workflowQuestion c.workflowSteps := by
  have hfires : (l.checkLargeTask command c).isSome = true ↔ l.LargeByEstimate c :=
    isSome_checkLargeTask_iff
  refine ⟨hfires, ?_, fun hnil => ?_, ?_⟩
  · rw [hfires]
    exact largeByEstimate_iff_largeByCount_iff
  · rw [hfires]
    exact largeByEstimate_iff_of_unlisted hnil
  · rintro p rfl hmode
    have ho : (Mode.largeTaskConfirm, Limits.checkLargeTask (α := α)) ∈ Protocol.occasions := by
      simp [Protocol.occasions]
    obtain ⟨t, ht, hcheck⟩ := Protocol.exists_trigger_of_mode ho hmode
    have hsome : (p.limits.checkLargeTask command c).isSome = true := by
      rw [ht]
      rfl
    rw [hcheck]
    exact ⟨hsome, rfl, rfl, rfl⟩

/-- A task of three listed steps that were estimated at seven is asked about, as one of three
steps. -/
theorem checkLargeTask_by_estimate_three :
    let c : Context Rat := { stepEstimate := some 7, workflowSteps := ["plan", "build", "check"] }
    let r := (Protocol.standard : Protocol Rat).check (.ofName "generate-site") c
    r.mode = some .largeTaskConfirm ∧ r.reason = "Large task: about 3 steps, ~0 tokens" := by
  intro c r
  have hmode : r.mode = some .largeTaskConfirm := by decide +kernel
  obtain ⟨-, -, -, hpresented⟩ := checkLargeTask_by_estimate (Protocol.standard : Protocol Rat).limits
    (.ofName "generate-site") c
  obtain ⟨-, hreason, -, -⟩ := hpresented .standard rfl hmode
  exact ⟨hmode, hreason.trans (by decide +kernel)⟩

/-- Eight listed steps are above the limit of five, and nothing is asked. -/
theorem checkLargeTask_eight_listed :
    let l : Limits Rat := .standard
    let c : Context Rat := { workflowSteps := ["a", "b", "c", "d", "e", "f", "g", "h"] }
    c.stepCount = 8 ∧ (l.tokens < c.tokens ∨ l.steps.toNat < c.stepCount) ∧
      l.checkLargeTask (.ofName "generate-site") c = none := by
  decide +kernel

end Limits

end CommandDesk
