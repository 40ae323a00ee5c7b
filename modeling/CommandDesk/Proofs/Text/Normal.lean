import CommandDesk.Text.Lowercase
import Mathlib.Tactic.ByContra

/-!
# The normal form of a text

Verbs and synonyms are compared trimmed and in lowercase. Taking that form twice
changes nothing (`normalize_normalize`): no lowercase letter has another
lowercase, and none is blank, so the ends of a trimmed text stay as they are.
What is particular to the table of letters is checked range by range in
`caseRanges_settled`; the rest is about any table with those properties.
-/

namespace CommandDesk

namespace Text

/-! ## Trimming -/

/-- A text with no blank at either end. -/
structure Trimmed (s : List Char) : Prop where
  front : ∀ c ∈ s.head?, isBlank c = false
  back : ∀ c ∈ s.getLast?, isBlank c = false

theorem trimFront_eq_self {s : List Char} (h : ∀ c ∈ s.head?, isBlank c = false) :
    trimFront s = s := by
  cases s with
  | nil => rfl
  | cons c s =>
    have hc : isBlank c = false := h c rfl
    simp [trimFront, hc]

theorem head_trimFront {s : List Char} : ∀ c ∈ (trimFront s).head?, isBlank c = false := by
  intro c hc
  have := List.head?_dropWhile_not isBlank s
  rw [show (s.dropWhile isBlank).head? = some c from hc] at this
  simpa using this

theorem trimChars_eq_self {s : List Char} (h : Trimmed s) : trimChars s = s := by
  have hback : trimFront s.reverse = s.reverse :=
    trimFront_eq_self fun c hc => h.back c (by rwa [List.head?_reverse] at hc)
  rw [trimChars, trimFront_eq_self h.front, trimBack, hback, List.reverse_reverse]

/-- Trimming the back leaves an initial part, which starts with the same character. -/
theorem trimBack_prefix (s : List Char) : trimBack s <+: s := by
  have := List.dropWhile_suffix isBlank (l := s.reverse)
  rw [← List.reverse_prefix, List.reverse_reverse] at this
  exact this

theorem mem_of_mem_trimChars {s : List Char} {c : Char} (h : c ∈ trimChars s) : c ∈ s := by
  have hback : trimChars s <+: trimFront s := trimBack_prefix (trimFront s)
  have hfront : trimFront s <:+ s := List.dropWhile_suffix isBlank
  exact hfront.subset (hback.subset h)

theorem trimmed_trimChars (s : List Char) : Trimmed (trimChars s) where
  front := by
    intro c hc
    obtain ⟨t, ht⟩ := trimBack_prefix (trimFront s)
    refine head_trimFront (s := s) c ?_
    rw [← ht, List.head?_append, show (trimBack (trimFront s)).head? = some c from hc]
    rfl
  back := by
    intro c hc
    refine head_trimFront (s := (trimFront s).reverse) c ?_
    rwa [trimChars, trimBack, List.getLast?_reverse] at hc

/-- A trimmed text stays one with a character in front of it that is not blank. -/
theorem Trimmed.cons {c : Char} {s : List Char} (h : Trimmed s) (hc : isBlank c = false) :
    Trimmed (c :: s) := by
  refine ⟨fun d hd => Option.some.inj hd ▸ hc, fun d hd => ?_⟩
  cases s with
  | nil => exact Option.some.inj hd ▸ hc
  | cons e s => exact h.back d (by rwa [List.getLast?_cons_cons] at hd)

/-- **Blanks around a text** do not count when it is trimmed. -/
theorem trimChars_append_blank {front back : List Char} (s : List Char)
    (hfront : ∀ c ∈ front, isBlank c = true) (hback : ∀ c ∈ back, isBlank c = true) :
    trimChars (front ++ s ++ back) = trimChars s := by
  have htrimBack : ∀ t : List Char, trimBack (t ++ back) = trimBack t := by
    intro t
    unfold trimBack trimFront
    rw [List.reverse_append, List.dropWhile_append_of_pos]
    simpa using hback
  have htrimFront : trimFront (front ++ s ++ back) = trimFront (s ++ back) := by
    rw [List.append_assoc]
    exact List.dropWhile_append_of_pos hfront
  unfold trimChars
  rw [htrimFront, trimFront, List.dropWhile_append]
  split
  · -- there is nothing but blanks
    rename_i hempty
    have hs : trimFront s = [] := List.isEmpty_iff.1 hempty
    have hnone : (back ++ []).dropWhile isBlank = [] := List.dropWhile_append_of_pos hback
    rw [List.append_nil] at hnone
    rw [hs, hnone]
  · exact htrimBack (trimFront s)

/-! ## Letters that are their own lowercase -/

/-- A character that lowercasing keeps, wherever it stands. -/
structure Settled (c : Char) : Prop where
  lower : lowerChar c = c
  not_sigma : c ≠ 'Σ'
  not_dotted : c ≠ 'İ'

theorem lowerInContext_of_settled {c : Char} (h : Settled c) (before after : List Char) :
    lowerInContext before c after = [c] := by
  rw [lowerInContext, if_neg h.not_sigma, if_neg h.not_dotted, h.lower]

theorem lowerAfter_of_settled {s : List Char} (h : ∀ c ∈ s, Settled c) (before : List Char) :
    lowerAfter before s = s := by
  induction s generalizing before with
  | nil => rfl
  | cons c s ih =>
    rw [lowerAfter, lowerInContext_of_settled (h c List.mem_cons_self),
      ih fun d hd => h d (List.mem_cons_of_mem _ hd)]
    rfl

namespace CaseRange

/-- The code point that is the lowercase of one in the range. -/
def lower (r : CaseRange) (n : Nat) : Nat := ((n : Int) + r.shift).toNat

/-- The lowercase of the first character. -/
def lowest (r : CaseRange) : Nat := r.lower r.first

/-- The lowercase of the last character. -/
def highest (r : CaseRange) : Nat := r.lower r.last

/-- Whether the lowercase of the range lies outside an interval. -/
def avoids (r : CaseRange) (first last : Nat) : Bool :=
  Nat.blt r.highest first || Nat.blt last r.lowest

/-- Whether the lowercase of the range falls between the characters of another one that takes
every other code point. -/
def interleaves (r q : CaseRange) : Bool :=
  (Nat.beq r.step 2 || Nat.beq r.first r.last) && Nat.beq q.step 2 &&
    Nat.beq ((r.lowest + q.first) % 2) 1

/-- Whether the lowercase of the range consists of characters that are settled and not blank. -/
def settles (r : CaseRange) : Bool :=
  caseRanges.all (fun q => r.avoids q.first q.last || r.interleaves q)
    && blankRanges.all (fun b => r.avoids b.1 b.2)
    && r.avoids 0x3A3 0x3A3 && r.avoids 0x130 0x130 && r.avoids 0xD800 0xDFFF
    && Nat.blt r.highest 0x110000 && decide (-(r.first : Int) ≤ r.shift)

end CaseRange

/-- **Every range of the table has a settled lowercase.** -/
theorem caseRanges_settled : caseRanges.all CaseRange.settles = true := by
  decide +kernel

namespace CaseRange

variable {r q : CaseRange} {n : Nat}

theorem lower_bounds (h : r.covers n = true) : r.lowest ≤ r.lower n ∧ r.lower n ≤ r.highest := by
  simp only [covers, Bool.and_eq_true, decide_eq_true_eq] at h
  simp only [lowest, lower, highest]
  omega

theorem lower_of_avoids {first last : Nat} (h : r.covers n = true)
    (ha : r.avoids first last = true) : r.lower n < first ∨ last < r.lower n := by
  have hb := lower_bounds h
  simp only [avoids, Bool.or_eq_true, Nat.blt_eq] at ha
  omega

/-- Neighbours two code points apart do not meet those of the other parity. -/
theorem not_covers_of_interleaves (h : r.covers n = true) (hs : -(r.first : Int) ≤ r.shift)
    (hi : r.interleaves q = true) : q.covers (r.lower n) = false := by
  have hb := lower_bounds h
  simp only [interleaves, Bool.and_eq_true, Bool.or_eq_true, Nat.beq_eq] at hi
  obtain ⟨⟨hr, hq⟩, hodd⟩ := hi
  simp only [covers, Bool.and_eq_true, decide_eq_true_eq, beq_iff_eq] at h
  obtain ⟨⟨hfirst, hlast⟩, hstep⟩ := h
  have heven : (n - r.first) % 2 = 0 := by
    rcases hr with hr | hr
    · rw [hr] at hstep
      exact hstep
    · omega
  have hlower : r.lower n = r.lowest + (n - r.first) := by
    simp only [lower, lowest]
    omega
  by_contra hc
  simp only [covers, Bool.not_eq_false, Bool.and_eq_true, decide_eq_true_eq, beq_iff_eq, hq] at hc
  omega

/-- What has been checked of every range, field by field. -/
structure Settles (r : CaseRange) : Prop where
  ranges : ∀ q ∈ caseRanges, r.avoids q.first q.last = true ∨ r.interleaves q = true
  blanks : ∀ b ∈ blankRanges, r.avoids b.1 b.2 = true
  sigma : r.avoids 0x3A3 0x3A3 = true
  dotted : r.avoids 0x130 0x130 = true
  surrogates : r.avoids 0xD800 0xDFFF = true
  highest_lt : r.highest < 0x110000
  shift : -(r.first : Int) ≤ r.shift

theorem settles_of_mem (hr : r ∈ caseRanges) : Settles r := by
  have hall := List.all_eq_true.1 caseRanges_settled r hr
  simp only [settles, Bool.and_eq_true, decide_eq_true_eq, Nat.blt_eq, List.all_eq_true,
    Bool.or_eq_true] at hall
  obtain ⟨⟨⟨⟨⟨⟨hranges, hblanks⟩, hsigma⟩, hdotted⟩, hsurrogates⟩, hhighest⟩, hshift⟩ := hall
  exact ⟨hranges, hblanks, hsigma, hdotted, hsurrogates, hhighest, hshift⟩

/-- The lowercase of a letter in the table is a character. -/
theorem toNat_lower (hr : r ∈ caseRanges) (h : r.covers n = true) :
    (Char.ofNat (r.lower n)).toNat = r.lower n := by
  have hbounds := lower_bounds h
  have hsurrogate := lower_of_avoids h (settles_of_mem hr).surrogates
  have hhighest := (settles_of_mem hr).highest_lt
  have hvalid : (r.lower n).isValidChar := by
    simp only [Nat.isValidChar]
    omega
  rw [Char.ofNat, dif_pos hvalid]
  rfl

/-- The lowercase of a letter in the table is not in the table. -/
theorem find?_covers_lower (hr : r ∈ caseRanges) (h : r.covers n = true) :
    caseRanges.find? (·.covers (r.lower n)) = none := by
  rw [List.find?_eq_none]
  intro q hq
  rw [Bool.not_eq_true]
  rcases (settles_of_mem hr).ranges q hq with ha | hi
  · have := lower_of_avoids h ha
    by_contra hc
    simp only [covers, Bool.not_eq_false, Bool.and_eq_true, decide_eq_true_eq] at hc
    omega
  · -- the two alternate, capitals between lowercase letters
    exact not_covers_of_interleaves h (settles_of_mem hr).shift hi

theorem settled_lower (hr : r ∈ caseRanges) (h : r.covers n = true) :
    Settled (Char.ofNat (r.lower n)) := by
  have hsigma := lower_of_avoids h (settles_of_mem hr).sigma
  have hdotted := lower_of_avoids h (settles_of_mem hr).dotted
  have hnat := toNat_lower hr h
  refine ⟨?_, ?_, ?_⟩
  · rw [lowerChar, hnat, find?_covers_lower hr h]
  · intro hc
    have := congrArg Char.toNat hc
    rw [hnat, show ('Σ' : Char).toNat = 0x3A3 from rfl] at this
    omega
  · intro hc
    have := congrArg Char.toNat hc
    rw [hnat, show ('İ' : Char).toNat = 0x130 from rfl] at this
    omega

theorem isBlank_lower (hr : r ∈ caseRanges) (h : r.covers n = true) :
    isBlank (Char.ofNat (r.lower n)) = false := by
  rw [isBlank, toNat_lower hr h, inRanges, List.any_eq_false]
  intro b hb
  have := lower_of_avoids h ((settles_of_mem hr).blanks b hb)
  simp only [Bool.and_eq_true, decide_eq_true_eq]
  omega

end CaseRange

/-- The range by which a character gets its lowercase, if the table has one for it. -/
theorem lowerChar_cases (c : Char) :
    (caseRanges.find? (·.covers c.toNat) = none ∧ lowerChar c = c) ∨
      ∃ r ∈ caseRanges, r.covers c.toNat = true ∧ lowerChar c = Char.ofNat (r.lower c.toNat) := by
  cases hf : caseRanges.find? (·.covers c.toNat) with
  | none => exact .inl ⟨rfl, by rw [lowerChar, hf]⟩
  | some r =>
    refine .inr ⟨r, List.mem_of_find?_eq_some hf, by simpa using List.find?_some hf, ?_⟩
    rw [lowerChar, hf]
    rfl

theorem settled_lowerChar {c : Char} (hs : c ≠ 'Σ') (hd : c ≠ 'İ') : Settled (lowerChar c) := by
  rcases lowerChar_cases c with ⟨-, hc⟩ | ⟨r, hr, hcov, hc⟩
  · rw [hc]
    exact ⟨hc, hs, hd⟩
  · rw [hc]
    exact CaseRange.settled_lower hr hcov

theorem isBlank_lowerChar {c : Char} (h : isBlank c = false) : isBlank (lowerChar c) = false := by
  rcases lowerChar_cases c with ⟨-, hc⟩ | ⟨r, hr, hcov, hc⟩
  · rwa [hc]
  · rw [hc]
    exact CaseRange.isBlank_lower hr hcov

/-! ## Lowercasing a text -/

variable {before after : List Char} {c d : Char}

theorem settled_of_mem_lowerInContext (h : d ∈ lowerInContext before c after) : Settled d := by
  have hi : Settled 'i' := ⟨by decide +kernel, by decide, by decide⟩
  have hdot : Settled '\u0307' := ⟨by decide +kernel, by decide, by decide⟩
  have hfinal : Settled 'ς' := ⟨by decide +kernel, by decide, by decide⟩
  have hsigma : Settled 'σ' := ⟨by decide +kernel, by decide, by decide⟩
  unfold lowerInContext at h
  split at h
  · rw [List.mem_singleton] at h
    rw [h]
    split
    · exact hfinal
    · exact hsigma
  · rename_i hs
    split at h
    · rcases List.mem_cons.1 h with rfl | h
      · exact hi
      · rw [List.mem_singleton.1 h]
        exact hdot
    · rename_i hd
      rw [List.mem_singleton.1 h]
      exact settled_lowerChar hs hd

theorem isBlank_of_mem_lowerInContext (hc : isBlank c = false)
    (h : d ∈ lowerInContext before c after) : isBlank d = false := by
  unfold lowerInContext at h
  split at h
  · rw [List.mem_singleton] at h
    rw [h]
    split <;> decide
  · split at h
    · rcases List.mem_cons.1 h with rfl | h
      · decide
      · rw [List.mem_singleton.1 h]
        decide
    · rw [List.mem_singleton.1 h]
      exact isBlank_lowerChar hc

theorem lowerInContext_ne_nil (before : List Char) (c : Char) (after : List Char) :
    lowerInContext before c after ≠ [] := by
  unfold lowerInContext
  split
  · exact List.cons_ne_nil _ _
  · split <;> exact List.cons_ne_nil _ _

theorem settled_of_mem_lowerAfter {s : List Char} (h : d ∈ lowerAfter before s) : Settled d := by
  induction s generalizing before with
  | nil => exact absurd h List.not_mem_nil
  | cons c s ih =>
    rcases List.mem_append.1 h with h | h
    · exact settled_of_mem_lowerInContext h
    · exact ih h

/-- Lowercasing brings no blank into a text. -/
theorem isBlank_of_mem_lowerAfter {s : List Char} (hs : ∀ c ∈ s, isBlank c = false)
    (h : d ∈ lowerAfter before s) : isBlank d = false := by
  induction s generalizing before with
  | nil => exact absurd h List.not_mem_nil
  | cons c s ih =>
    obtain ⟨hc, hs⟩ := List.forall_mem_cons.1 hs
    rcases List.mem_append.1 h with h | h
    · exact isBlank_of_mem_lowerInContext hc h
    · exact ih hs h

theorem lowerAfter_ne_nil {s : List Char} (h : s ≠ []) (before : List Char) :
    lowerAfter before s ≠ [] := by
  cases s with
  | nil => exact absurd rfl h
  | cons c s =>
    rw [lowerAfter]
    exact List.append_ne_nil_of_left_ne_nil (lowerInContext_ne_nil before c s) _

theorem head_lowerAfter {s : List Char} (h : ∀ c ∈ s.head?, isBlank c = false) :
    ∀ d ∈ (lowerAfter before s).head?, isBlank d = false := by
  intro d hd
  cases s with
  | nil => exact absurd hd (by simp [lowerAfter])
  | cons c s =>
    obtain ⟨e, es, he⟩ := List.exists_cons_of_ne_nil (lowerInContext_ne_nil before c s)
    have hde : d = e := by
      rw [lowerAfter, he] at hd
      simpa using hd.symm
    rw [hde]
    exact isBlank_of_mem_lowerInContext (h c rfl) (he ▸ List.mem_cons_self)

theorem getLast_lowerAfter {s : List Char} (h : ∀ c ∈ s.getLast?, isBlank c = false) :
    ∀ d ∈ (lowerAfter before s).getLast?, isBlank d = false := by
  intro d hd
  induction s generalizing before with
  | nil => exact absurd hd (by simp [lowerAfter])
  | cons c s ih =>
    rw [lowerAfter] at hd
    cases s with
    | nil =>
      rw [lowerAfter, List.append_nil] at hd
      exact isBlank_of_mem_lowerInContext (h c rfl) (List.mem_of_getLast? hd)
    | cons e s =>
      -- the last character comes from the rest, which is not empty
      have hx := List.getLast?_eq_some_getLast
        (lowerAfter_ne_nil (List.cons_ne_nil e s) (c :: before))
      rw [List.getLast?_append, hx, Option.some_or, ← hx] at hd
      exact ih (fun x hx => h x (by rwa [List.getLast?_cons_cons])) hd

theorem lowerChars_lowerChars (s : List Char) : lowerChars (lowerChars s) = lowerChars s :=
  lowerAfter_of_settled (fun _ hc => settled_of_mem_lowerAfter hc) []

/-- Lowercasing makes no end of a text blank. -/
theorem trimmed_lowerChars {s : List Char} (h : Trimmed s) : Trimmed (lowerChars s) :=
  ⟨head_lowerAfter h.front, getLast_lowerAfter h.back⟩

@[simp] theorem toList_normalize (s : String) :
    (normalize s).toList = lowerChars (trimChars s.toList) := by
  simp [normalize, lower, trim]

/-- The normal form has no blank at its ends. -/
theorem trim_normalize (s : String) : trim (normalize s) = normalize s := by
  have htrim : trimChars (lowerChars (trimChars s.toList)) = lowerChars (trimChars s.toList) :=
    trimChars_eq_self (trimmed_lowerChars (trimmed_trimChars s.toList))
  unfold trim
  rw [toList_normalize, htrim, ← toList_normalize, String.ofList_toList]

/-- The normal form is in lowercase. -/
theorem lower_normalize (s : String) : lower (normalize s) = normalize s := by
  unfold lower
  rw [toList_normalize, lowerChars_lowerChars, ← toList_normalize, String.ofList_toList]

/-- **The normal form is its own normal form.** -/
@[simp] theorem normalize_normalize (s : String) : normalize (normalize s) = normalize s := by
  have hunfold : normalize (normalize s) = lower (trim (normalize s)) := rfl
  rw [hunfold, trim_normalize, lower_normalize]

end Text

end CommandDesk
