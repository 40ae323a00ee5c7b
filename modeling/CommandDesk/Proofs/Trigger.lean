import CommandDesk.Protocol

/-!
# Triggers and the occasions they are paired with

Each check fires triggers of one kind, and the kinds go with the occasions for
a confirmation (`TriggerKind.mode?`); missing parameters are an occasion for
none. What a check fires is never without severity. The most severe trigger is
the first of those that no other exceeds (`firstMostSevere_mostSevere`), which is
one trigger (`FirstMostSevere.unique`).
-/

namespace CommandDesk

/-- The occasion for a confirmation that triggers of a kind make. -/
def TriggerKind.mode? : TriggerKind → Option Mode
  | .highRisk => some .highRiskConfirm
  | .ambiguousVerb => some .ambiguousRepair
  | .inputError => some .inputMissing
  | .previousError => some .errorRecovery
  | .largeTask => some .largeTaskConfirm
  | .none | .missingRequired => Option.none

/-- The verbs of irreversible commands are severe. -/
theorem irreversibleSeverity?_pos {verb : String} {severity : UInt32}
    (h : irreversibleSeverity? verb = some severity) : 0 < severity := by
  have hall : ∀ e ∈ irreversibleVerbs, 0 < e.2 := by decide
  obtain ⟨e, he, rfl⟩ := Option.map_eq_some_iff.1 h
  exact hall e (List.mem_of_find?_eq_some he)

namespace Limits

section

variable {α : Type} {s t u : Trigger α} {ts : List (Trigger α)}

/-! ## The first of the most severe -/

/-- The first of the most severe triggers: what is listed before it is less severe, and nothing
after it is more severe. -/
def FirstMostSevere (ts : List (Trigger α)) (t : Trigger α) : Prop :=
  ∃ before after, ts = before ++ t :: after ∧ (∀ s ∈ before, s.severity < t.severity) ∧
    ∀ s ∈ after, s.severity ≤ t.severity

namespace FirstMostSevere

theorem mem (h : FirstMostSevere ts t) : t ∈ ts := by
  obtain ⟨before, after, rfl, -, -⟩ := h
  simp

theorem severity_le (h : FirstMostSevere ts t) (hs : s ∈ ts) : s.severity ≤ t.severity := by
  obtain ⟨before, after, rfl, hbefore, hafter⟩ := h
  rcases List.mem_append.1 hs with hs | hs
  · exact UInt32.le_of_lt (hbefore s hs)
  · rcases List.mem_cons.1 hs with rfl | hs
    · exact UInt32.le_refl _
    · exact hafter s hs

/-- A less severe trigger in front changes nothing. -/
theorem cons (h : FirstMostSevere ts t) (hlt : s.severity < t.severity) :
    FirstMostSevere (s :: ts) t := by
  obtain ⟨before, after, rfl, hbefore, hafter⟩ := h
  exact ⟨s :: before, after, rfl, List.forall_mem_cons.2 ⟨hlt, hbefore⟩, hafter⟩

/-- Nor does one behind the front that is not more severe than the front. -/
theorem insert (h : FirstMostSevere (s :: ts) t) (hle : u.severity ≤ s.severity) :
    FirstMostSevere (s :: u :: ts) t := by
  obtain ⟨before, after, hsplit, hbefore, hafter⟩ := h
  cases before with
  | nil =>
    obtain ⟨rfl, rfl⟩ := List.cons_eq_cons.1 hsplit
    exact ⟨[], u :: ts, rfl, hbefore, List.forall_mem_cons.2 ⟨hle, hafter⟩⟩
  | cons d before =>
    obtain ⟨rfl, rfl⟩ := List.cons_eq_cons.1 hsplit
    obtain ⟨hs, hbefore⟩ := List.forall_mem_cons.1 hbefore
    have hu : u.severity < t.severity := UInt32.lt_of_le_of_lt hle hs
    exact ⟨s :: u :: before, after, rfl,
      List.forall_mem_cons.2 ⟨hs, List.forall_mem_cons.2 ⟨hu, hbefore⟩⟩, hafter⟩

/-- Of two lists that begin alike, the shorter beginning leads to the same trigger. -/
theorem eq_of_append {before rest after after' : List (Trigger α)}
    (hbefore : ∀ s ∈ before ++ rest, s.severity < u.severity)
    (hafter : ∀ s ∈ after, s.severity ≤ t.severity)
    (hsplit : t :: after = rest ++ u :: after') : t = u := by
  cases rest with
  | nil => exact (List.cons_eq_cons.1 hsplit).1
  | cons d rest =>
    obtain ⟨rfl, rfl⟩ := List.cons_eq_cons.1 hsplit
    have hlt : t.severity < u.severity := hbefore t (by simp)
    have hle : u.severity ≤ t.severity := hafter u (by simp)
    exact absurd hlt (UInt32.not_lt.2 hle)

/-- **There is one first of the most severe.** -/
theorem unique (h : FirstMostSevere ts t) (h' : FirstMostSevere ts u) : t = u := by
  obtain ⟨before, after, rfl, hbefore, hafter⟩ := h
  obtain ⟨before', after', hsplit, hbefore', hafter'⟩ := h'
  rcases List.append_eq_append_iff.1 hsplit with ⟨rest, rfl, hrest⟩ | ⟨rest, rfl, hrest⟩
  · exact eq_of_append hbefore' hafter hrest
  · exact (eq_of_append hbefore hafter' hrest).symm

end FirstMostSevere

/-- Going through triggers for the most severe one finds the first of them. -/
theorem firstMostSevere_foldl (ts : List (Trigger α)) (s : Trigger α) :
    FirstMostSevere (s :: ts) (ts.foldl moreSevere s) := by
  induction ts generalizing s with
  | nil => exact ⟨[], [], rfl, by simp, by simp⟩
  | cons d ts ih =>
    rw [List.foldl_cons]
    unfold moreSevere
    split
    · rename_i hlt
      have hkept := ih d
      exact hkept.cons (UInt32.lt_of_lt_of_le hlt (hkept.severity_le List.mem_cons_self))
    · rename_i hle
      exact (ih s).insert (UInt32.not_lt.1 hle)

end

variable {α : Type} [Grade α] {l : Limits α} {command : Command} {c : Context α} {t : Trigger α}

/-! ## What fires -/

/-- A sum that does not fit is the largest word. -/
theorem toNat_addSaturating (a b : UInt32) :
    (addSaturating a b).toNat = min (a.toNat + b.toNat) (UInt32.size - 1) := by
  have hfits : min (a.toNat + b.toNat) (UInt32.size - 1) < UInt32.size := by
    simp only [UInt32.size]
    omega
  exact UInt32.toNat_ofNat_of_lt' hfits

/-- A doubt has a severity of three or more, however small it is. -/
theorem three_le_doubtSeverity (threshold confidence : α) :
    3 ≤ doubtSeverity threshold confidence := by
  have hthree : (3 : UInt32).toNat = 3 := rfl
  rw [UInt32.le_iff_toNat_le, doubtSeverity, toNat_addSaturating, hthree]
  simp only [UInt32.size]
  omega

/-- **A check that makes an occasion** fires severe triggers of the kind that goes with it. -/
theorem mode?_of_mem_occasions {o : Mode × (Limits α → Command → Context α → Option (Trigger α))}
    (ho : o ∈ Protocol.occasions) (h : o.2 l command c = some t) :
    t.kind.mode? = some o.1 ∧ 0 < t.severity := by
  simp only [Protocol.occasions, List.mem_cons, List.not_mem_nil, or_false] at ho
  rcases ho with rfl | rfl | rfl | rfl | rfl
  · obtain ⟨severity, hs, rfl⟩ := Option.map_eq_some_iff.1 h
    exact ⟨rfl, irreversibleSeverity?_pos hs⟩
  · change l.checkAmbiguousVerb command c = some t at h
    unfold checkAmbiguousVerb at h
    split at h
    · cases h
      exact ⟨rfl, UInt32.lt_of_lt_of_le (by decide) (three_le_doubtSeverity _ _)⟩
    · cases h
  · obtain ⟨f, -, rfl⟩ := Option.map_eq_some_iff.1 h
    exact ⟨rfl, (by decide : (0 : UInt32) < 5)⟩
  · obtain ⟨f, -, rfl⟩ := Option.map_eq_some_iff.1 h
    exact ⟨rfl, (by decide : (0 : UInt32) < 6)⟩
  · obtain ⟨cause, -, rfl⟩ := Option.map_eq_some_iff.1 h
    exact ⟨rfl, (by decide : (0 : UInt32) < 4)⟩

omit [Grade α] in
/-- Missing parameters are reported as such. -/
theorem kind_of_checkMissingRequired (h : l.checkMissingRequired command c = some t) :
    t.kind = .missingRequired := by
  unfold checkMissingRequired at h
  split at h
  · cases h
  · cases h
    rfl

/-- Where something fires, the most severe trigger is the first of the most severe. -/
theorem firstMostSevere_mostSevere (hne : l.checkAll command c ≠ []) :
    FirstMostSevere (l.checkAll command c) (l.mostSevere command c) := by
  obtain ⟨s, ts, hcons⟩ := List.exists_cons_of_ne_nil hne
  unfold mostSevere
  rw [hcons]
  exact firstMostSevere_foldl ts s

/-- **No trigger that fires is more severe than the most severe one.** -/
theorem severity_le_mostSevere (h : t ∈ l.checkAll command c) :
    t.severity ≤ (l.mostSevere command c).severity :=
  (firstMostSevere_mostSevere (List.ne_nil_of_mem h)).severity_le h

end Limits

end CommandDesk
