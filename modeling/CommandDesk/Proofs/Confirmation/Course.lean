import CommandDesk.Proofs.Protocol

/-!
# The course of a confirmation

After it is drawn up, a confirmation meets replies and perhaps the end of its
time, in any order and any number. `Settled` says which choice and which final
command go with each status; every step keeps it, a step keeps what was asked,
and once the status is not pending a step keeps everything. So the same holds
after a whole course (`course_of_check`).
-/

namespace CommandDesk

namespace Confirmation

variable {α : Type}

/-- What a confirmation can meet. -/
inductive Event where
  | reply (a : Reply)
  | timeUp

/-- The confirmation after an event. -/
def step (r : Confirmation α) : Event → Confirmation α
  | .reply a => r.apply a
  | .timeUp => r.expire.1

/-- The confirmation after a course of events. -/
def course (r : Confirmation α) (es : List Event) : Confirmation α := es.foldl step r

/-- Two confirmations ask for the same thing; they may differ in what came of it. -/
structure SameQuestion (r s : Confirmation α) : Prop where
  triggered : r.triggered = s.triggered
  mode : r.mode = s.mode
  kind : r.kind = s.kind
  severity : r.severity = s.severity
  command : r.command = s.command
  reason : r.reason = s.reason
  suggestions : r.suggestions = s.suggestions
  question : r.question = s.question

/-- One of the numbered suggestions was chosen and is the final command. -/
def ChoseSuggestion (r : Confirmation α) : Prop :=
  ∃ i : UInt64, 1 ≤ i.toNat ∧ i.toNat ≤ r.suggestions.length ∧ r.choice = some (.index i) ∧
    r.final = (r.suggestions[i.toNat - 1]?).map (·.command)

/-- A typed command was chosen and is the final command. -/
def ChoseCommand (r : Confirmation α) : Prop :=
  ∃ t : String, t.toList.head? = some '/' ∧ r.choice = some (.command t) ∧ r.final = some t

/-- Nothing was chosen. -/
def ChoseNothing (r : Confirmation α) : Prop := r.choice = none ∧ r.final = none

/-- **The choice and the final command fit the status.** -/
def Settled (r : Confirmation α) : Prop :=
  match r.status with
  | .confirmed => r.ChoseSuggestion
  | .modified => r.ChoseCommand
  | .pending | .cancelled | .timeout => r.ChoseNothing

variable {r : Confirmation α}

/-- What one event can make of a confirmation that is pending. -/
inductive Becomes (r : Confirmation α) : Confirmation α → Prop where
  | unchanged : Becomes r r
  /-- A number selects the suggestion that carries it. -/
  | confirmed (i : UInt64) (s : Suggestion α) :
      1 ≤ i.toNat → r.suggestions[i.toNat - 1]? = some s →
      Becomes r
        { r with status := .confirmed, choice := some (.index i), final := some s.command }
  /-- A command is typed in place of the suggestions. -/
  | modified (t : String) : t.toList.head? = some '/' → Becomes r (r.modify t)
  | cancelled : Becomes r { r with status := .cancelled }
  | timedOut : Becomes r { r with status := .timeout }

variable {r s : Confirmation α}

/-! ## One step -/

theorem SameQuestion.refl (r : Confirmation α) : SameQuestion r r :=
  ⟨rfl, rfl, rfl, rfl, rfl, rfl, rfl, rfl⟩

theorem SameQuestion.trans {t : Confirmation α} (h : SameQuestion r s)
    (h' : SameQuestion s t) : SameQuestion r t :=
  ⟨h.triggered.trans h'.triggered, h.mode.trans h'.mode, h.kind.trans h'.kind,
    h.severity.trans h'.severity, h.command.trans h'.command, h.reason.trans h'.reason,
    h.suggestions.trans h'.suggestions, h.question.trans h'.question⟩

theorem becomes_select (r : Confirmation α) (i : UInt64) : r.Becomes (r.select i) := by
  unfold select
  split
  · exact .unchanged
  · rename_i hi
    have hpos : i.toNat ≠ 0 := fun h => hi (UInt64.toNat_inj.1 h)
    split
    · rename_i s hs
      exact .confirmed i s (by omega) hs
    · exact .unchanged

theorem becomes_applyText (r : Confirmation α) (t : String) : r.Becomes (r.applyText t) := by
  unfold applyText
  dsimp only
  split
  · exact .cancelled
  · split
    · -- digits select by their value, unless it does not fit a word
      split
      · exact becomes_select r _
      · exact .unchanged
    · split
      · exact .modified _ ‹_›
      · exact .unchanged

theorem expire_of_isPending (h : r.isPending = true) :
    r.expire = ({ r with status := .timeout }, true) := if_pos h

/-- What does not wait for a reply cannot time out. -/
theorem expire_of_not_isPending (h : ¬ r.isPending = true) : r.expire = (r, false) := if_neg h

theorem becomes_step (r : Confirmation α) (e : Event) : r.Becomes (r.step e) := by
  cases e with
  | reply a =>
    change r.Becomes (r.apply a)
    unfold apply
    split
    · exact .unchanged
    · cases a with
      | index i => exact becomes_select r i
      | text t => exact becomes_applyText r t
  | timeUp =>
    change r.Becomes r.expire.1
    unfold expire
    split
    · exact .timedOut
    · exact .unchanged

/-- **A decided confirmation is left as it is.** -/
theorem step_of_ne_pending (h : r.status ≠ .pending) (e : Event) : r.step e = r := by
  cases e with
  | reply a =>
    have hterminal : r.status.isTerminal = true := by simpa [Status.isTerminal] using h
    exact if_pos hterminal
  | timeUp =>
    have hpending : ¬ r.isPending = true := by simp [isPending, h]
    exact congrArg Prod.fst (expire_of_not_isPending hpending)

/-- No event touches what was asked. -/
theorem Becomes.sameQuestion (h : r.Becomes s) : SameQuestion r s := by
  cases h with
  | unchanged => exact .refl r
  | confirmed | modified | cancelled | timedOut => exact ⟨rfl, rfl, rfl, rfl, rfl, rfl, rfl, rfl⟩

/-- **What a pending confirmation becomes is settled.** -/
theorem Becomes.settled (h : r.Becomes s) (hp : r.status = .pending) (hr : r.Settled) :
    s.Settled := by
  have hnothing : r.ChoseNothing := by
    unfold Settled at hr
    rwa [hp] at hr
  cases h with
  | unchanged => exact hr
  | confirmed i s hi hs =>
    obtain ⟨hlt, -⟩ := List.getElem?_eq_some_iff.1 hs
    have hle : i.toNat ≤ r.suggestions.length := by omega
    have hfinal : some s.command = (r.suggestions[i.toNat - 1]?).map (·.command) := by
      rw [hs]
      rfl
    exact ⟨i, hi, hle, rfl, hfinal⟩
  | modified t ht => exact ⟨t, ht, rfl, rfl⟩
  | cancelled => exact hnothing
  | timedOut => exact hnothing

theorem settled_step (h : r.Settled) (e : Event) : (r.step e).Settled := by
  -- only a pending confirmation is changed
  by_cases hp : r.status = .pending
  · exact (becomes_step r e).settled hp h
  · rw [step_of_ne_pending hp]
    exact h

/-! ## A whole course -/

theorem course_of_ne_pending (h : r.status ≠ .pending) (es : List Event) : r.course es = r := by
  induction es with
  | nil => rfl
  | cons e es ih =>
    have hcons : r.course (e :: es) = (r.step e).course es := rfl
    rw [hcons, step_of_ne_pending h, ih]

theorem sameQuestion_course (r : Confirmation α) (es : List Event) :
    SameQuestion r (r.course es) := by
  induction es generalizing r with
  | nil => exact .refl r
  | cons e es ih => exact (becomes_step r e).sameQuestion.trans (ih (r.step e))

theorem settled_course (h : r.Settled) (es : List Event) : (r.course es).Settled := by
  induction es generalizing r with
  | nil => exact h
  | cons e es ih => exact ih (settled_step h e)

/-! ## Reading the status off the choice -/

/-- The three ways in which a confirmation can be settled. -/
theorem Settled.cases (h : r.Settled) :
    (r.status = .confirmed ∧ r.ChoseSuggestion) ∨ (r.status = .modified ∧ r.ChoseCommand) ∨
      ((r.status = .pending ∨ r.status = .cancelled ∨ r.status = .timeout) ∧ r.ChoseNothing) := by
  unfold Settled at h
  cases hs : r.status with
  | confirmed =>
    rw [hs] at h
    exact .inl ⟨rfl, h⟩
  | modified =>
    rw [hs] at h
    exact .inr (.inl ⟨rfl, h⟩)
  | pending | cancelled | timeout =>
    rw [hs] at h
    exact .inr (.inr ⟨by simp, h⟩)

theorem Settled.confirmed_iff (h : r.Settled) : r.status = .confirmed ↔ r.ChoseSuggestion := by
  constructor
  · intro hs
    unfold Settled at h
    rwa [hs] at h
  · rintro ⟨i, -, -, hindex, -⟩
    rcases h.cases with ⟨hs, -⟩ | ⟨-, t, -, hcommand, -⟩ | ⟨-, hnothing, -⟩
    · exact hs
    · rw [hindex] at hcommand
      cases hcommand
    · rw [hindex] at hnothing
      cases hnothing

theorem Settled.modified_iff (h : r.Settled) : r.status = .modified ↔ r.ChoseCommand := by
  constructor
  · intro hs
    unfold Settled at h
    rwa [hs] at h
  · rintro ⟨t, -, hcommand, -⟩
    rcases h.cases with ⟨-, i, -, -, hindex, -⟩ | ⟨hs, -⟩ | ⟨-, hnothing, -⟩
    · rw [hcommand] at hindex
      cases hindex
    · exact hs
    · rw [hcommand] at hnothing
      cases hnothing

theorem Settled.choseNothing (h : r.Settled)
    (hs : r.status = .pending ∨ r.status = .cancelled ∨ r.status = .timeout) :
    r.ChoseNothing := by
  unfold Settled at h
  rcases hs with hs | hs | hs <;> rwa [hs] at h

/-! ## From the protocol -/

variable [Grade α]

/-- The protocol hands out confirmations with nothing chosen. -/
theorem settled_check (p : Protocol α) (command : Command) (c : Context α) :
    (p.check command c).Settled := by
  rcases p.check_cases command c with ⟨-, hcheck⟩ | ⟨-, o, -, t, -, -, -, hcheck⟩
  · rw [hcheck]
    exact ⟨rfl, rfl⟩
  · rw [hcheck]
    exact ⟨rfl, rfl⟩

/-- **The course of a confirmation that the protocol drew up.** Once it is decided nothing changes
it. It is confirmed exactly when one of its suggestions was chosen by number, and modified exactly
when a command was typed; otherwise nothing is chosen. What was asked never changes. -/
theorem course_of_check (p : Protocol α) (command : Command) (c : Context α)
    (es : List Event) :
    let start := p.check command c
    let r := start.course es
    (r.status ≠ .pending → ∀ later, r.course later = r) ∧
      (r.status = .confirmed ↔ r.ChoseSuggestion) ∧
      (r.status = .modified ↔ r.ChoseCommand) ∧
      (r.status = .pending ∨ r.status = .cancelled ∨ r.status = .timeout → r.ChoseNothing) ∧
      SameQuestion start r := by
  intro start r
  have hsettled : r.Settled := settled_course (settled_check p command c) es
  exact ⟨course_of_ne_pending, hsettled.confirmed_iff, hsettled.modified_iff,
    hsettled.choseNothing, sameQuestion_course start es⟩

end Confirmation

end CommandDesk
