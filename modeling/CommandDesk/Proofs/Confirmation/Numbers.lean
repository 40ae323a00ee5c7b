import CommandDesk.Proofs.Confirmation.Words
import CommandDesk.Proofs.Suggestion
import CommandDesk.Proofs.Trigger

/-!
# The number shown is the number that selects

A confirmation that is asked for is complete (`Complete`): it says in which mode,
why and what it asks, and its suggestions are numbered from one without gaps.
The number printed beside a suggestion, given as a number or typed in digits,
confirms that suggestion (`confirms_of_triggered`).
-/

namespace CommandDesk

/-! ## Wording -/

theorem append_ne_empty {s t : String} (h : s ≠ "") : s ++ t ≠ "" := by
  intro happend
  exact h (String.append_eq_empty_iff.1 happend).1

namespace Protocol

variable {α : Type}

/-- A failure that says nothing gets the default text. -/
theorem failureText_ne_empty (f : Option Failure) {default : String} (h : default ≠ "") :
    failureText f default ≠ "" := by
  unfold failureText
  cases hs : (f.map fun f => Text.trim f.message).filter (!·.isEmpty) with
  | none => exact h
  | some s =>
    have hs := (Option.filter_eq_some_iff.1 hs).2
    simpa using hs

theorem workflowQuestion_ne_empty (steps : List String) : workflowQuestion steps ≠ "" := by
  unfold workflowQuestion
  split
  · decide
  · exact append_ne_empty (append_ne_empty (by decide))

variable [Grade α]

theorem reason_ne_empty (p : Protocol α) (mode : Mode) (command : Command) (c : Context α) :
    p.reason mode command c ≠ "" := by
  cases mode with
  | inputMissing => exact failureText_ne_empty _ (by decide)
  | errorRecovery => exact append_ne_empty (by decide)
  | highRiskConfirm => exact append_ne_empty (append_ne_empty (by decide))
  | largeTaskConfirm =>
    exact append_ne_empty (append_ne_empty (append_ne_empty (append_ne_empty (by decide))))
  | ambiguousRepair =>
    exact append_ne_empty (append_ne_empty (append_ne_empty (append_ne_empty
      (append_ne_empty (append_ne_empty (by decide))))))

omit [Grade α] in
theorem question_ne_empty (mode : Mode) (c : Context α) : question mode c ≠ "" := by
  cases mode with
  | largeTaskConfirm => exact workflowQuestion_ne_empty c.workflowSteps
  | highRiskConfirm | ambiguousRepair | inputMissing | errorRecovery => simp [question]

end Protocol

namespace Confirmation

variable {α : Type} {r : Confirmation α}

/-! ## Numbers as replies -/

/-- **A number that is typed is a number**, whatever confirmation it answers. -/
theorem applyText_natString (r : Confirmation α) (i : UInt64) :
    r.applyText (Decimal.natString i.toNat) = r.select i := by
  have hnumber : IsNumber (Decimal.natString i.toNat) := isNumber_natString i.toNat
  have htrim : Text.trim (Decimal.natString i.toNat) = Decimal.natString i.toNat :=
    Text.trim_of_plain hnumber.plain
  rw [applyText_of_isNumber (by rwa [htrim]), htrim, numberOf_natString, if_pos i.toNat_lt,
    UInt64.ofNat_toNat]

/-- What a pending confirmation becomes by a number, given as such or typed. -/
theorem apply_number (hp : r.status = .pending) (i : UInt64) :
    r.apply (.index i) = r.select i ∧
      r.apply (.text (Decimal.natString i.toNat)) = r.select i :=
  ⟨apply_of_pending_index hp i, (apply_of_pending_text hp _).trans (applyText_natString r i)⟩

/-! ## What is asked -/

/-- **A confirmation that can be put to a person**: it says everything, nothing is chosen yet, and
the suggestions are numbered from one up to the limit at most. -/
structure Complete (p : Protocol α) (command : Command) (r : Confirmation α) : Prop where
  mode : ∃ mode, r.mode = some mode
  command : r.command = some command
  severe : 0 < r.severity
  kind : r.kind ≠ .none
  reason : r.reason ≠ ""
  question : r.question ≠ ""
  pending : r.status = .pending
  nothing : r.ChoseNothing
  few : r.suggestions.length ≤ p.maxSuggestions.toNat
  numbered : ∀ k s, r.suggestions[k]? = some s → s.index.toNat = k + 1

/-- The number is printed in front of the suggestion, and answering with it, as a number or in
digits, confirms the suggestion. -/
structure Confirms (r : Confirmation α) (i : UInt64) (s : Suggestion α) : Prop where
  index : s.index = i
  printed : ∃ rest, s.text = Decimal.natString i.toNat ++ (". " ++ rest)
  byNumber : r.apply (.index i) =
    { r with status := .confirmed, choice := some (.index i), final := some s.command }
  byDigits : r.apply (.text (Decimal.natString i.toNat)) =
    { r with status := .confirmed, choice := some (.index i), final := some s.command }

/-- In a complete confirmation every number up to the last confirms the suggestion that it is
printed beside. -/
theorem Complete.confirms {p : Protocol α} {command : Command} (h : r.Complete p command)
    {i : UInt64} (hi : 1 ≤ i.toNat) (hle : i.toNat ≤ r.suggestions.length) :
    ∃ s, r.suggestions[i.toNat - 1]? = some s ∧ r.Confirms i s := by
  have hlt : i.toNat - 1 < r.suggestions.length := by omega
  have hs := List.getElem?_eq_getElem hlt
  have hindex : r.suggestions[i.toNat - 1].index = i := by
    have := h.numbered _ _ hs
    rw [← UInt64.toNat_inj]
    omega
  obtain ⟨hnumber, hdigits⟩ := apply_number h.pending i
  rw [select_of_getElem? hi hs] at hnumber hdigits
  refine ⟨_, hs, hindex, ?_, hnumber, hdigits⟩
  rw [Suggestion.text_eq, hindex]
  exact ⟨_, rfl⟩

variable [Grade α]

/-- What an occasion asks for is complete. -/
theorem complete_ask {p : Protocol α} {command : Command} {c : Context α} {t : Trigger α}
    {o : Mode × (Limits α → Command → Context α → Option (Trigger α))}
    (ho : o ∈ Protocol.occasions) (ht : o.2 p.limits command c = some t) :
    (p.ask o.1 t command c).Complete p command := by
  obtain ⟨hmode, hsevere⟩ := Limits.mode?_of_mem_occasions ho ht
  obtain ⟨drafts, hoptions⟩ := p.exists_options_eq_numbered o.1 command c
  have hkind : t.kind ≠ .none := by
    intro hnone
    rw [hnone] at hmode
    cases hmode
  have hsuggestions : (p.ask o.1 t command c).suggestions =
      Suggestion.numbered p.maxSuggestions drafts := hoptions
  refine ⟨⟨o.1, rfl⟩, rfl, hsevere, hkind, p.reason_ne_empty o.1 command c,
    Protocol.question_ne_empty o.1 c, rfl, ⟨rfl, rfl⟩, ?_, ?_⟩
  · rw [hsuggestions]
    exact Suggestion.length_numbered_le _ _
  · rw [hsuggestions]
    exact fun _ _ => Suggestion.toNat_index_of_getElem?

/-- **A confirmation that the protocol asks for is complete**, and the number shown beside a
suggestion is the number that selects it. -/
theorem confirms_of_triggered (p : Protocol α) (command : Command) (c : Context α)
    (h : (p.check command c).triggered = true) :
    (p.check command c).Complete p command ∧
      ∀ i : UInt64, 1 ≤ i.toNat → i.toNat ≤ (p.check command c).suggestions.length →
        ∃ s, (p.check command c).suggestions[i.toNat - 1]? = some s ∧
          (p.check command c).Confirms i s := by
  have hcomplete : (p.check command c).Complete p command := by
    rcases p.check_cases command c with ⟨-, hcheck⟩ | ⟨before, o, after, t, hsplit, -, ht, hcheck⟩
    · rw [hcheck] at h
      cases h
    · rw [hcheck]
      have ho : o ∈ Protocol.occasions := by simp [hsplit]
      exact complete_ask ho ht
  exact ⟨hcomplete, fun i hi hle => hcomplete.confirms hi hle⟩

/-- A failure without a message, where one recovery of two finds room before the second try. -/
theorem confirms_second_try :
    let p : Protocol Float := ⟨90.0, 50000, 5, 2⟩
    let command := Command.ofName "convert-file"
    let c : Context Float :=
      { previousReport := some ⟨" ", some "E1"⟩
        recoveries := [⟨"/list-files", "", none⟩, ⟨"/search-content", "", none⟩] }
    let r := p.check command c
    r.triggered = true ∧ r.Complete p command ∧
      ∃ s, r.suggestions[(1 : Nat)]? = some s ∧ r.Confirms 2 s := by
  intro p command c r
  have htriggered : r.triggered = true := by decide +kernel
  have htwo : (2 : UInt64).toNat ≤ r.suggestions.length := by decide +kernel
  obtain ⟨hcomplete, hconfirms⟩ := confirms_of_triggered p command c htriggered
  exact ⟨htriggered, hcomplete, hconfirms 2 (by decide) htwo⟩

end Confirmation

end CommandDesk
