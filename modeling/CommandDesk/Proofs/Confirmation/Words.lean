import CommandDesk.Proofs.Confirmation.Course
import CommandDesk.Proofs.Decimal.Digits

/-!
# Replies in words

What is left of a typed reply without the blanks around it is read in one of
three ways: as a word that cancels, as a number, or as a command in place of the
suggestions. No text is read in two ways, since lowercasing leaves digits alone
and puts no slash in front (`Cancels.not_isNumber`, `Cancels.not_isCommand`). A
number in digits does what the number itself does, however many zeros stand in
front of it (`applyText_of_isNumber`), and any other text is passed over. The
four cases together are `apply_text`.
-/

namespace CommandDesk

namespace Confirmation

variable {α : Type} {r : Confirmation α} {u : String}

/-- A word that cancels, in capitals or not. -/
def Cancels (u : String) : Prop := Text.lower u ∈ cancelWords

/-- A number in decimal digits, of any length. -/
structure IsNumber (u : String) : Prop where
  ne_empty : u ≠ ""
  digits : ∀ c ∈ u.toList, c.isDigit = true

/-- The number that digits stand for. -/
def numberOf (u : String) : Nat := Nat.ofDigitChars 10 u.toList 0

/-- A command in place of the suggestions. -/
def IsCommand (u : String) : Prop := u.toList.head? = some '/'

/-! ## One reading at most -/

/-- No word that cancels is written in digits. -/
theorem not_allDigits_of_mem_cancelWords :
    ∀ w ∈ cancelWords, Decimal.allDigits w.toList = false := by
  decide

/-- And none begins with a slash. -/
theorem head_of_mem_cancelWords : ∀ w ∈ cancelWords, w.toList.head? ≠ some '/' := by
  decide

theorem IsNumber.plain (h : IsNumber u) : ∀ c ∈ u.toList, Text.Plain c :=
  fun c hc => Decimal.plain_of_isDigit (h.digits c hc)

theorem IsNumber.allDigits (h : IsNumber u) : Decimal.allDigits u.toList = true :=
  Decimal.allDigits_iff.2 h.digits

theorem isNumber_natString (n : Nat) : IsNumber (Decimal.natString n) := by
  refine ⟨fun hempty => ?_, fun c hc => ?_⟩
  · have hlist := congrArg String.toList hempty
    rw [Decimal.toList_natString] at hlist
    exact Decimal.natText_ne_nil n hlist
  · rw [Decimal.toList_natString] at hc
    exact Decimal.isDigit_of_mem_natText hc

/-- The digits of a number stand for it. -/
theorem numberOf_natString (n : Nat) : numberOf (Decimal.natString n) = n := by
  unfold numberOf
  rw [Decimal.toList_natString]
  exact Nat.ofDigitChars_ten_toDigits

theorem Cancels.not_isNumber (h : Cancels u) : ¬ IsNumber u := by
  intro hnumber
  unfold Cancels at h
  -- digits are their own lowercase
  rw [Text.lower_of_plain hnumber.plain] at h
  have hnot := not_allDigits_of_mem_cancelWords u h
  rw [hnumber.allDigits] at hnot
  cases hnot

theorem Cancels.not_isCommand (h : Cancels u) : ¬ IsCommand u := by
  intro hslash
  have hlower : (Text.lower u).toList.head? = some '/' := by
    unfold Text.lower
    rw [String.toList_ofList]
    exact Text.head_lowerChars_of_plain ⟨by decide, by decide, by decide⟩ hslash
  exact head_of_mem_cancelWords _ h hlower

theorem IsNumber.not_isCommand (h : IsNumber u) : ¬ IsCommand u := by
  intro hslash
  have hdigit := h.digits '/' (List.mem_of_mem_head? hslash)
  exact absurd hdigit (by decide)

/-! ## What each reading does -/

theorem applyText_of_cancels {t : String} (h : Cancels (Text.trim t)) :
    r.applyText t = { r with status := .cancelled } := by
  have hword : cancelWords.contains (Text.lower (Text.trim t)) = true := List.contains_iff_mem.2 h
  unfold applyText
  dsimp only
  rw [if_pos hword]

theorem contains_cancelWords_eq_false (h : ¬ Cancels u) :
    cancelWords.contains (Text.lower u) = false := by
  rw [← Bool.not_eq_true, List.contains_iff_mem]
  exact h

/-- **A number in digits selects what the number selects**, if it fits a word. -/
theorem applyText_of_isNumber {t : String} (h : IsNumber (Text.trim t)) :
    r.applyText t =
      if numberOf (Text.trim t) < UInt64.size then r.select (.ofNat (numberOf (Text.trim t)))
      else r := by
  have hword := contains_cancelWords_eq_false fun hcancels => hcancels.not_isNumber h
  have hdigits : (!(Text.trim t).isEmpty && Decimal.allDigits (Text.trim t).toList) = true := by
    have hnonempty : (Text.trim t).isEmpty = false := by simpa using h.ne_empty
    rw [hnonempty, h.allDigits]
    rfl
  have hvalue : Decimal.nat? (Text.trim t).toList = some (numberOf (Text.trim t)) :=
    Decimal.nat?_of_isDigit (by simpa using h.ne_empty) h.digits
  unfold applyText
  dsimp only
  rw [hword, if_neg Bool.false_ne_true, if_pos hdigits, hvalue, Option.filter_some]
  by_cases hfits : numberOf (Text.trim t) < UInt64.size
  · rw [if_pos (decide_eq_true hfits), if_pos hfits]
  · rw [if_neg (by simpa using hfits), if_neg hfits]

theorem applyText_of_isCommand {t : String} (h : IsCommand (Text.trim t)) :
    r.applyText t = r.modify (Text.trim t) := by
  have hword := contains_cancelWords_eq_false fun hcancels => hcancels.not_isCommand h
  have hdigits : ¬ (!(Text.trim t).isEmpty && Decimal.allDigits (Text.trim t).toList) = true := by
    intro hboth
    rw [Bool.and_eq_true, Decimal.allDigits_iff] at hboth
    exact IsNumber.not_isCommand ⟨by simpa using hboth.1, hboth.2⟩ h
  unfold applyText
  dsimp only
  rw [hword, if_neg Bool.false_ne_true, if_neg hdigits]
  exact if_pos h

/-- **A text that is read in no way is passed over.** -/
theorem applyText_of_other {t : String} (hcancels : ¬ Cancels (Text.trim t))
    (hnumber : ¬ IsNumber (Text.trim t)) (hcommand : ¬ IsCommand (Text.trim t)) :
    r.applyText t = r := by
  have hdigits : ¬ (!(Text.trim t).isEmpty && Decimal.allDigits (Text.trim t).toList) = true := by
    intro hboth
    rw [Bool.and_eq_true, Decimal.allDigits_iff] at hboth
    exact hnumber ⟨by simpa using hboth.1, hboth.2⟩
  unfold applyText
  dsimp only
  rw [contains_cancelWords_eq_false hcancels, if_neg Bool.false_ne_true, if_neg hdigits]
  exact if_neg hcommand

/-- A number selects the suggestion in its place. -/
theorem select_of_getElem? {i : UInt64} {s : Suggestion α} (hi : 1 ≤ i.toNat)
    (hs : r.suggestions[i.toNat - 1]? = some s) :
    r.select i =
      { r with status := .confirmed, choice := some (.index i), final := some s.command } := by
  have hne : i ≠ 0 := by
    rintro rfl
    exact absurd hi (by decide)
  unfold select
  rw [if_neg hne, hs]

/-- Zero and the numbers above that of the last suggestion select nothing. -/
theorem select_of_out_of_range {i : UInt64}
    (h : i.toNat = 0 ∨ r.suggestions.length < i.toNat) : r.select i = r := by
  unfold select
  by_cases hzero : i = 0
  · rw [if_pos hzero]
  · have hpos : i.toNat ≠ 0 := fun h => hzero (UInt64.toNat_inj.1 h)
    have hbeyond : r.suggestions[i.toNat - 1]? = none := by
      rw [List.getElem?_eq_none_iff]
      omega
    rw [if_neg hzero, hbeyond]

/-- So do they in digits, and numbers that are too large for a word. -/
theorem applyText_of_out_of_range {t : String} (h : IsNumber (Text.trim t))
    (hout : numberOf (Text.trim t) = 0 ∨ r.suggestions.length < numberOf (Text.trim t) ∨
      UInt64.size ≤ numberOf (Text.trim t)) :
    r.applyText t = r := by
  rw [applyText_of_isNumber h]
  split
  · rename_i hfits
    have hvalue : (UInt64.ofNat (numberOf (Text.trim t))).toNat = numberOf (Text.trim t) :=
      UInt64.toNat_ofNat_of_lt' hfits
    apply select_of_out_of_range
    rw [hvalue]
    omega
  · rfl

/-! ## Replies to a pending confirmation -/

theorem apply_of_pending_text (hp : r.status = .pending) (t : String) :
    r.apply (.text t) = r.applyText t := by
  have hopen : ¬ r.status.isTerminal = true := by simp [Status.isTerminal, hp]
  exact if_neg hopen

theorem apply_of_pending_index (hp : r.status = .pending) (i : UInt64) :
    r.apply (.index i) = r.select i := by
  have hopen : ¬ r.status.isTerminal = true := by simp [Status.isTerminal, hp]
  exact if_neg hopen

/-- **Every typed reply is read in one way.** To a pending confirmation a word that cancels only
changes the status. A number in digits does what the number does: it confirms the suggestion in that
place, and does nothing when it is zero, above the number of suggestions, or too large for a word. A
command takes the place of the suggestions, as it was typed. Any other text changes nothing, and no
text falls under two of these cases. -/
theorem apply_text (r : Confirmation α) (t : String) (hp : r.status = .pending) :
    let u := Text.trim t
    (Cancels u → r.apply (.text t) = { r with status := .cancelled }) ∧
      (IsNumber u →
        (∀ i : UInt64, i.toNat = numberOf u → r.apply (.text t) = r.apply (.index i) ∧
          ∀ s, 1 ≤ i.toNat → r.suggestions[i.toNat - 1]? = some s → r.apply (.text t) =
            { r with status := .confirmed, choice := some (.index i), final := some s.command }) ∧
        (numberOf u = 0 ∨ r.suggestions.length < numberOf u ∨ UInt64.size ≤ numberOf u →
          r.apply (.text t) = r)) ∧
      (IsCommand u → r.apply (.text t) =
        { r with status := .modified, choice := some (.command u), final := some u }) ∧
      (¬ Cancels u → ¬ IsNumber u → ¬ IsCommand u → r.apply (.text t) = r) ∧
      ¬ (Cancels u ∧ IsNumber u) ∧ ¬ (Cancels u ∧ IsCommand u) ∧
      ¬ (IsNumber u ∧ IsCommand u) := by
  intro u
  rw [apply_of_pending_text hp]
  refine ⟨applyText_of_cancels, fun hnumber => ⟨fun i hi => ?_, applyText_of_out_of_range hnumber⟩,
    applyText_of_isCommand, applyText_of_other, fun h => h.1.not_isNumber h.2,
    fun h => h.1.not_isCommand h.2, fun h => h.1.not_isCommand h.2⟩
  have hfits : numberOf u < UInt64.size := hi ▸ i.toNat_lt
  rw [apply_of_pending_index hp, applyText_of_isNumber hnumber, if_pos hfits, ← hi,
    UInt64.ofNat_toNat]
  exact ⟨rfl, fun s hpos hs => select_of_getElem? hpos hs⟩

/-- What can be answered when a command deletes: each reading of a reply, with blanks around it,
zeros in front of the number and capitals in the word. -/
theorem apply_text_delete_file :
    let r := (Protocol.standard : Protocol Float).check (.ofName "delete-file") .empty
    r.status = .pending ∧
      (Cancels (Text.trim "NO ") ∧ r.apply (.text "NO ") = { r with status := .cancelled }) ∧
      (IsNumber (Text.trim " 002 ") ∧ r.apply (.text " 002 ") = r.apply (.index 2)) ∧
      (IsCommand (Text.trim " /list-files") ∧ r.apply (.text " /list-files") =
        { r with
          status := .modified
          choice := some (.command "/list-files")
          final := some "/list-files" }) ∧
      r.apply (.text "1.") = r := by
  intro r
  have hp : r.status = .pending := by decide +kernel
  have hcancels : Cancels (Text.trim "NO ") := by
    unfold Cancels
    decide +kernel
  have hnumber : IsNumber (Text.trim " 002 ") := by
    have hall : (Text.trim " 002 ").toList.all Char.isDigit = true := by decide +kernel
    exact ⟨by decide +kernel, List.all_eq_true.1 hall⟩
  have hcommand : IsCommand (Text.trim " /list-files") := by
    unfold IsCommand
    decide +kernel
  have hother : ¬ Cancels (Text.trim "1.") ∧ ¬ IsNumber (Text.trim "1.") ∧
      ¬ IsCommand (Text.trim "1.") := by
    refine ⟨?_, fun h => absurd (h.digits '.') (by decide +kernel), ?_⟩
    · unfold Cancels
      decide +kernel
    · unfold IsCommand
      decide +kernel
  refine ⟨hp, ⟨hcancels, (apply_text r _ hp).1 hcancels⟩,
    ⟨hnumber, (((apply_text r _ hp).2.1 hnumber).1 2 (by decide +kernel)).1⟩,
    ⟨hcommand, ?_⟩, (apply_text r _ hp).2.2.2.1 hother.1 hother.2.1 hother.2.2⟩
  have htrim : Text.trim " /list-files" = "/list-files" := by decide +kernel
  have hmodified := (apply_text r _ hp).2.2.1 hcommand
  rwa [htrim] at hmodified

end Confirmation

end CommandDesk
