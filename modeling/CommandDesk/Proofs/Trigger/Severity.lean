import CommandDesk.Proofs.Trigger
import Mathlib.Algebra.Order.Floor.Ring
import Mathlib.Data.Rat.Floor
import Mathlib.Tactic.NormNum

/-!
# Severity

The most severe trigger is the first of those that no other exceeds
(`firstMostSevere_iff`), and there is none exactly when nothing fires. The one
severity that is computed is that of a doubt. Read exactly, it is three and one
more for every ten points that the confidence lies below the threshold, up to the
largest word (`toNat_doubtSeverity_exact`), so a doubt is graded no lower than
three, and a higher confidence is never a more severe doubt.
-/

namespace CommandDesk

namespace Limits

/-! ## What fires -/

variable {α : Type} [Grade α] {l : Limits α} {command : Command} {c : Context α} {t : Trigger α}

/-- What a check fires says that it fired, and speaks of an ambiguous verb only if that check fired
it. -/
theorem fired_of_mem_checkAll (h : t ∈ l.checkAll command c) :
    t.triggered = true ∧ (t.kind = .ambiguousVerb → l.checkAmbiguousVerb command c = some t) := by
  obtain ⟨check, hcheck, ht⟩ := List.mem_filterMap.1 h
  simp only [checks, List.mem_cons, List.not_mem_nil, or_false] at hcheck
  rcases hcheck with rfl | rfl | rfl | rfl | rfl | rfl
  · obtain ⟨severity, -, rfl⟩ := Option.map_eq_some_iff.1 ht
    exact ⟨rfl, nofun⟩
  · refine ⟨?_, fun _ => ht⟩
    unfold checkAmbiguousVerb at ht
    split at ht <;> cases ht
    rfl
  · obtain ⟨f, -, rfl⟩ := Option.map_eq_some_iff.1 ht
    exact ⟨rfl, nofun⟩
  · obtain ⟨f, -, rfl⟩ := Option.map_eq_some_iff.1 ht
    exact ⟨rfl, nofun⟩
  · obtain ⟨cause, -, rfl⟩ := Option.map_eq_some_iff.1 ht
    exact ⟨rfl, nofun⟩
  · unfold checkMissingRequired at ht
    split at ht <;> cases ht
    exact ⟨rfl, nofun⟩

/-- **The most severe trigger** is the first of the most severe ones that fire. -/
theorem firstMostSevere_iff :
    FirstMostSevere (l.checkAll command c) t ↔
      l.checkAll command c ≠ [] ∧ t = l.mostSevere command c := by
  constructor
  · intro h
    have hne := List.ne_nil_of_mem h.mem
    exact ⟨hne, h.unique (firstMostSevere_mostSevere hne)⟩
  · rintro ⟨hne, rfl⟩
    exact firstMostSevere_mostSevere hne

/-- Nothing is found exactly when nothing fires. -/
theorem mostSevere_eq_silent_iff :
    l.mostSevere command c = .silent ↔ l.checkAll command c = [] := by
  constructor
  · intro hsilent
    by_contra hne
    have hmem := (firstMostSevere_mostSevere hne).mem
    rw [hsilent] at hmem
    exact Bool.false_ne_true (fired_of_mem_checkAll hmem).1
  · intro hnil
    unfold mostSevere
    rw [hnil]

/-! ## Doubts -/

/-- The trigger of an ambiguous verb, where it fires. -/
structure Doubt (l : Limits α) (command : Command) (c : Context α) (t : Trigger α) : Prop where
  mem : t ∈ l.checkAll command c
  kind : t.kind = .ambiguousVerb

theorem doubt_iff : l.Doubt command c t ↔ l.checkAmbiguousVerb command c = some t := by
  constructor
  · intro h
    exact (fired_of_mem_checkAll h.mem).2 h.kind
  · intro h
    refine ⟨List.mem_filterMap.2 ⟨checkAmbiguousVerb, by simp [checks], h⟩, ?_⟩
    unfold checkAmbiguousVerb at h
    split at h <;> cases h
    rfl

/-- A verb is in doubt when the confidence is below the threshold. -/
theorem exists_doubt_iff : (∃ t, l.Doubt command c t) ↔ c.confidence < l.confidence := by
  simp only [doubt_iff]
  unfold checkAmbiguousVerb
  split
  · rename_i hlt
    exact iff_of_true ⟨_, rfl⟩ hlt
  · rename_i hle
    exact iff_of_false (fun ⟨t, ht⟩ => by cases ht) hle

theorem Doubt.lt (h : l.Doubt command c t) : c.confidence < l.confidence :=
  exists_doubt_iff.1 ⟨t, h⟩

theorem Doubt.severity_eq (h : l.Doubt command c t) :
    t.severity = doubtSeverity l.confidence c.confidence := by
  have hfires := doubt_iff.1 h
  unfold checkAmbiguousVerb at hfires
  rw [if_pos h.lt] at hfires
  cases hfires
  rfl

/-! ## Exactly -/

theorem toNat_whole_rat (q : Rat) : (Grade.whole q).toNat = min ⌊q⌋.toNat (UInt32.size - 1) := by
  have hfits : min q.floor.toNat (UInt32.size - 1) < UInt32.size := by
    simp only [UInt32.size]
    omega
  exact UInt32.toNat_ofNat_of_lt' hfits

/-- **Read exactly**, a doubt is graded by whole tens of points. -/
theorem toNat_doubtSeverity_exact {threshold confidence : Rat} (h : confidence ≤ threshold) :
    ((doubtSeverity threshold confidence).toNat : Int) =
      min (⌊(threshold - confidence) / 10⌋ + 3) (2 ^ 32 - 1) := by
  have hten : (threshold - confidence) / (10.0 : Rat) = (threshold - confidence) / 10 := by norm_num
  have hfloor : 0 ≤ ⌊(threshold - confidence) / 10⌋ := by
    refine Int.floor_nonneg.2 (div_nonneg (sub_nonneg.2 h) (by norm_num))
  have hthree : (3 : UInt32).toNat = 3 := rfl
  unfold doubtSeverity
  rw [toNat_addSaturating, toNat_whole_rat, hthree, hten]
  simp only [UInt32.size]
  omega

/-- A higher confidence is no more severe a doubt. -/
theorem Doubt.severity_le_exact {l : Limits Rat} {c c' : Context Rat} {t t' : Trigger Rat}
    (h : l.Doubt command c t) (h' : l.Doubt command c' t') (hle : c.confidence ≤ c'.confidence) :
    t'.severity ≤ t.severity := by
  have hfloor : ⌊(l.confidence - c'.confidence) / 10⌋ ≤ ⌊(l.confidence - c.confidence) / 10⌋ :=
    Int.floor_le_floor (div_le_div_of_nonneg_right (sub_le_sub_left hle _) (by norm_num))
  have hexact := toNat_doubtSeverity_exact h.lt.le
  have hexact' := toNat_doubtSeverity_exact h'.lt.le
  rw [h.severity_eq, h'.severity_eq, UInt32.le_iff_toNat_le]
  omega

/-- **The most severe trigger is the first of the most severe.** None is found exactly when nothing
fires. Otherwise it is the one trigger that is more severe than all that are listed before it and as
severe at least as all others. An ambiguous verb fires when the confidence is below the threshold,
with a severity of three at least. Read exactly, the severity is three and one more for every ten
points below the threshold, up to the largest word, and it never rises with the confidence. -/
theorem mostSevere_is_first (l : Limits α) (command : Command) (c : Context α) :
    (l.mostSevere command c = .silent ↔ l.checkAll command c = []) ∧
      (∀ t, FirstMostSevere (l.checkAll command c) t ↔
        l.checkAll command c ≠ [] ∧ t = l.mostSevere command c) ∧
      ((∃ t, l.Doubt command c t) ↔ c.confidence < l.confidence) ∧
      (∀ t, l.Doubt command c t → 3 ≤ t.severity) ∧
      ∀ (l : Limits Rat) (c : Context Rat) (t : Trigger Rat), l.Doubt command c t →
        (t.severity.toNat : Int) =
            min (⌊(l.confidence - c.confidence) / 10⌋ + 3) (2 ^ 32 - 1) ∧
          ∀ (c' : Context Rat) (t' : Trigger Rat), l.Doubt command c' t' →
            c.confidence ≤ c'.confidence → t'.severity ≤ t.severity := by
  refine ⟨mostSevere_eq_silent_iff, fun t => firstMostSevere_iff, exists_doubt_iff, fun t h => ?_,
    fun l c t h => ⟨?_, fun c' t' h' hle => h.severity_le_exact h' hle⟩⟩
  · rw [h.severity_eq]
    exact three_le_doubtSeverity _ _
  · rw [h.severity_eq]
    exact toNat_doubtSeverity_exact h.lt.le

/-- An irreversible verb that was not mapped at all is more of a doubt than a risk, and the largest
word is the end of it. -/
example :
    let l : Limits Rat := .standard
    let severity (confidence : Rat) : UInt32 :=
      (l.mostSevere (.ofName "delete-file") { mappingConfidence := some confidence }).severity
    severity 95 = 9 ∧ severity 30 = 9 ∧ severity 0 = 12 ∧ severity (-10 ^ 12) = 4294967295 := by
  decide +kernel

end Limits

end CommandDesk
