import CommandDesk.Proofs.Text.Normal

/-!
# Plain text

The printed characters of the ASCII range other than capitals: digits,
lowercase letters, hyphens. A text of such characters is its own normal form
(`normalize_of_plain`), which is why numbers and command names pass through
replies and look-ups as they are. Those before the lowercase letters come out of
lowercasing only where they were before (`head_of_head_lowerChars`).
-/

namespace CommandDesk

namespace Text

/-- A printed character of the ASCII range that is no capital. -/
structure Plain (c : Char) : Prop where
  printed : 0x21 ≤ c.toNat
  ascii : c.toNat < 0x80
  not_capital : ¬ (0x41 ≤ c.toNat ∧ c.toNat ≤ 0x5A)

/-- The letters that have a lowercase of their own are capitals or lie past the ASCII range. -/
theorem caseRanges_past_ascii :
    caseRanges.all (fun r =>
      Nat.ble 0x80 r.first || (Nat.ble 0x41 r.first && Nat.ble r.last 0x5A)) = true := by
  decide +kernel

variable {c : Char} {s : List Char}

theorem Plain.settled (h : Plain c) : Settled c := by
  obtain ⟨-, hascii, hcapital⟩ := h
  have hnone : caseRanges.find? (·.covers c.toNat) = none := by
    rw [List.find?_eq_none]
    intro r hr hcovers
    have hrange := List.all_eq_true.1 caseRanges_past_ascii r hr
    simp only [Bool.or_eq_true, Bool.and_eq_true, Nat.ble_eq] at hrange
    simp only [CaseRange.covers, Bool.and_eq_true, decide_eq_true_eq] at hcovers
    omega
  refine ⟨?_, ?_, ?_⟩
  · unfold lowerChar
    rw [hnone]
  · rintro rfl
    exact absurd hascii (by decide)
  · rintro rfl
    exact absurd hascii (by decide)

theorem Plain.not_blank (h : Plain c) : isBlank c = false := by
  obtain ⟨hprinted, hascii, -⟩ := h
  unfold isBlank inRanges
  rw [List.any_eq_false]
  intro r hr
  simp only [blankRanges, List.mem_cons, List.not_mem_nil, or_false] at hr
  simp only [Bool.and_eq_true, decide_eq_true_eq]
  rcases hr with rfl | rfl | rfl | rfl | rfl | rfl | rfl | rfl | rfl | rfl <;> omega

theorem trimmed_of_plain (h : ∀ c ∈ s, Plain c) : Trimmed s :=
  ⟨fun c hc => (h c (List.mem_of_head? hc)).not_blank,
    fun c hc => (h c (List.mem_of_getLast? hc)).not_blank⟩

theorem trim_of_plain {s : String} (h : ∀ c ∈ s.toList, Plain c) : trim s = s := by
  unfold trim
  rw [trimChars_eq_self (trimmed_of_plain h), String.ofList_toList]

theorem lower_of_plain {s : String} (h : ∀ c ∈ s.toList, Plain c) : lower s = s := by
  have hchars : lowerChars s.toList = s.toList :=
    lowerAfter_of_settled (fun c hc => (h c hc).settled) []
  unfold lower
  rw [hchars, String.ofList_toList]

/-- **A plain text is its own normal form.** -/
theorem normalize_of_plain {s : String} (h : ∀ c ∈ s.toList, Plain c) : normalize s = s := by
  unfold normalize
  rw [trim_of_plain h, lower_of_plain h]

/-- A plain character at the front of a text stays there in lowercase. -/
theorem head_lowerChars_of_plain (hc : Plain c) (h : s.head? = some c) :
    (lowerChars s).head? = some c := by
  cases s with
  | nil => cases h
  | cons d s =>
    obtain rfl : d = c := Option.some.inj h
    rw [lowerChars, lowerAfter, lowerInContext_of_settled hc.settled]
    rfl

/-! ## What lowercasing brings into a text -/

/-- Every lowercase letter comes after the capitals, the digits and the signs among them. -/
theorem caseRanges_to_letters : caseRanges.all (fun r => Nat.ble 0x61 r.lowest) = true := by
  decide +kernel

/-- A character before the lowercase letters is the lowercase of nothing but itself. -/
theorem eq_of_mem_lowerInContext {before after : List Char} {d : Char} (hd : d.toNat < 0x61)
    (h : d ∈ lowerInContext before c after) : c = d := by
  unfold lowerInContext at h
  split at h
  · rw [List.mem_singleton] at h
    rw [h] at hd
    split at hd <;> exact absurd hd (by decide)
  · split at h
    · rcases List.mem_cons.1 h with rfl | h
      · exact absurd hd (by decide)
      · rw [List.mem_singleton.1 h] at hd
        exact absurd hd (by decide)
    · rw [List.mem_singleton] at h
      rw [h]
      rcases lowerChar_cases c with ⟨-, hc⟩ | ⟨r, hr, hcovers, hc⟩
      · exact hc.symm
      · have hlowest := List.all_eq_true.1 caseRanges_to_letters r hr
        have hbounds := CaseRange.lower_bounds hcovers
        rw [h, hc, CaseRange.toNat_lower hr hcovers] at hd
        rw [Nat.ble_eq] at hlowest
        omega

/-- **Lowercasing puts no sign at the front of a text** that was not there before. -/
theorem head_of_head_lowerChars {d : Char} (hd : d.toNat < 0x61)
    (h : (lowerChars s).head? = some d) : s.head? = some d := by
  cases s with
  | nil => cases h
  | cons c s =>
    obtain ⟨e, es, he⟩ := List.exists_cons_of_ne_nil (lowerInContext_ne_nil [] c s)
    have hde : e = d := by
      rw [lowerChars, lowerAfter, he] at h
      exact Option.some.inj h
    have hmem : d ∈ lowerInContext [] c s := by
      rw [he, hde]
      exact List.mem_cons_self
    rw [eq_of_mem_lowerInContext hd hmem]
    rfl

end Text

end CommandDesk
