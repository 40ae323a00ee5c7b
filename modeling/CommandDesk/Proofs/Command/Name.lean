import CommandDesk.Command.Basic
import CommandDesk.Proofs.Text.Plain
import CommandDesk.Proofs.Text.Split

/-!
# Valid command names

A valid name consists of lowercase letters and hyphens, so it is its own normal
form and so is its verb. Its verb is not empty.
-/

namespace CommandDesk

namespace Name

variable {s : String}

/-- A name without a hyphen is its verb; any other has its verb before the first hyphen and its
noun after it. -/
theorem split_cases (s : String) :
    ('-' ∉ s.toList ∧ verb s = s ∧ noun s = "") ∨
      (s.toList = (verb s).toList ++ '-' :: (noun s).toList ∧ '-' ∉ (verb s).toList) := by
  unfold verb noun split Text.splitOnce?
  cases h : Text.splitFirst? '-' s.toList with
  | none => exact .inl ⟨Text.splitFirst?_eq_none_iff.1 h, rfl, rfl⟩
  | some p =>
    obtain ⟨hs, hverb⟩ := Text.eq_append_of_splitFirst? h
    right
    simpa using ⟨hs, hverb⟩

theorem mem_of_mem_verb {c : Char} (h : c ∈ (verb s).toList) : c ∈ s.toList := by
  rcases split_cases s with ⟨-, hverb, -⟩ | ⟨hs, -⟩
  · rwa [hverb] at h
  · rw [hs]
    exact List.mem_append_left _ h

/-! ## Valid names -/

/-- A word of a name: there is something in it, and all of it is letters. -/
structure LetterWord (w : List Char) : Prop where
  ne_nil : w ≠ []
  letters : ∀ c ∈ w, isLetter c = true

theorem isJoinedWords_iff_pieces {cs : List Char} :
    isJoinedWords cs = true ↔ ∀ w ∈ Text.pieces '-' cs, LetterWord w := by
  have hword : ∀ w : List Char, (!w.isEmpty && w.all isLetter) = true ↔ LetterWord w := by
    intro w
    simp only [Bool.and_eq_true, Bool.not_eq_true', List.isEmpty_eq_false_iff, List.all_eq_true]
    exact ⟨fun h => ⟨h.1, h.2⟩, fun h => ⟨h.ne_nil, h.letters⟩⟩
  unfold isJoinedWords
  rw [List.all_eq_true]
  simp only [hword]

theorem isValid_iff :
    isValid s = true ↔ s.utf8ByteSize ≤ maxBytes ∧ isJoinedWords s.toList = true := by
  unfold isValid
  rw [Bool.and_eq_true, decide_eq_true_eq]

/-- The check accepts the valid names. -/
theorem validate_eq_ok : validate s = .ok () ↔ isValid s = true := by
  unfold validate
  split <;> simp [*]

/-- The words of a valid name. -/
theorem letterWord_of_isValid (h : isValid s = true) {w : List Char}
    (hw : w ∈ Text.pieces '-' s.toList) : LetterWord w :=
  isJoinedWords_iff_pieces.1 (isValid_iff.1 h).2 w hw

/-- **A valid name has no characters but letters and hyphens.** -/
theorem isLetter_or_hyphen (h : isValid s = true) {c : Char} (hc : c ∈ s.toList) :
    isLetter c = true ∨ c = '-' := by
  rcases Text.exists_mem_pieces '-' hc with hhyphen | ⟨w, hw, hcw⟩
  · exact .inr hhyphen
  · exact .inl ((letterWord_of_isValid h hw).letters c hcw)

theorem plain_of_isValid (h : isValid s = true) {c : Char} (hc : c ∈ s.toList) : Text.Plain c := by
  rcases isLetter_or_hyphen h hc with hletter | rfl
  · simp only [isLetter, Bool.and_eq_true, decide_eq_true_eq] at hletter
    have hlow : 'a'.toNat ≤ c.toNat := hletter.1
    have hhigh : c.toNat ≤ 'z'.toNat := hletter.2
    simp only [Char.reduceToNat] at hlow hhigh
    exact ⟨by omega, by omega, by omega⟩
  · exact ⟨by decide, by decide, by decide⟩

/-- **A valid name is its own normal form.** -/
theorem normalize_of_isValid (h : isValid s = true) : Text.normalize s = s :=
  Text.normalize_of_plain fun _ => plain_of_isValid h

theorem normalize_verb (h : isValid s = true) : Text.normalize (verb s) = verb s :=
  Text.normalize_of_plain fun _ hc => plain_of_isValid h (mem_of_mem_verb hc)

/-- The verb is the first word, so it is not empty. -/
theorem verb_ne_empty (h : isValid s = true) : verb s ≠ "" := by
  have hfirst : (verb s).toList ∈ Text.pieces '-' s.toList := by
    rcases split_cases s with ⟨hhyphen, hverb, -⟩ | ⟨hs, hhyphen⟩
    · rw [hverb, Text.pieces_of_not_mem hhyphen]
      exact List.mem_cons_self
    · rw [hs, Text.pieces_append hhyphen]
      exact List.mem_cons_self
  intro hempty
  rw [hempty] at hfirst
  exact (letterWord_of_isValid h hfirst).ne_nil rfl

/-- No word is empty, so a valid name begins with no hyphen. -/
theorem head_ne_hyphen (h : isValid s = true) : s.toList.head? ≠ some '-' := by
  intro hhead
  obtain ⟨cs, hs⟩ := List.head?_eq_some_iff.1 hhead
  have hempty : [] ∈ Text.pieces '-' s.toList := by
    rw [hs, Text.pieces, if_pos rfl]
    exact List.mem_cons_self
  exact (letterWord_of_isValid h hempty).ne_nil rfl

/-- A valid name begins with no slash. -/
theorem dropWhile_slash (h : isValid s = true) : s.toList.dropWhile (· = '/') = s.toList := by
  cases hs : s.toList with
  | nil => rfl
  | cons c cs =>
    have hc : c ≠ '/' := by
      rintro rfl
      have hmem : '/' ∈ s.toList := by simp [hs]
      rcases isLetter_or_hyphen h hmem with hletter | hhyphen
      · exact absurd hletter (by decide)
      · exact absurd hhyphen (by decide)
    simp [hc]

end Name

/-- A command of a valid name has that name. -/
theorem Command.name_ofName {s : String} (h : Name.isValid s = true) : (ofName s).name = s :=
  Name.normalize_of_isValid h

/-- A command of a valid name in place of another one has its own name. -/
theorem Command.name_retarget (c : Command) {s : String} (h : Name.isValid s = true) :
    (c.retarget s).name = s := by
  unfold retarget
  dsimp only
  exact name_ofName h

end CommandDesk
